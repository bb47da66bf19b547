import OrderFlow.Text.Blank

/-!
# Files of variables

A file binds variables line by line, `NAME=value`. A value may stand between quotes and then
runs over line ends; a bare one ends with its line or before a comment. `$` with a name in
braces stands for the value of another variable, or for a default behind `:-`. A line that
fits no form is skipped.
-/

namespace OrderFlow.EnvFile

open Text

/-- A name, and its value if the line gives one. -/
abbrev Binding := String × Option String

/-- A blank that does not end a line. -/
def isInner (c : Char) : Bool :=
  isBlank c && c != '\n' && c != '\r'

/-- A character that ends a line. -/
def endsLine (c : Char) : Bool :=
  c == '\n' || c == '\r'

/-- A text with all line ends written the same way. -/
def unifyLines : List Char → List Char
  | '\r' :: '\n' :: cs => '\n' :: unifyLines cs
  | '\r' :: cs => '\n' :: unifyLines cs
  | c :: cs => c :: unifyLines cs
  | [] => []

/-- The text behind a word that is followed by blanks, or the text itself. -/
def skipExport (cs : List Char) : List Char :=
  match "export".toList.isPrefixOf? cs with
  | some rest => if rest.head?.any isInner then rest.dropWhile isInner else cs
  | none => cs

/-- A character of a bare name. -/
def isNameChar (c : Char) : Bool :=
  c != '=' && c != '#' && !isBlank c

/-- The name at the start of a line, or none before a comment, and the rest. -/
def name? (cs : List Char) : Except (List Char) (Option String × List Char) :=
  match cs with
  | '#' :: _ => .ok (none, cs)
  | '\x27' :: rest =>
    let key := rest.takeWhile (· ≠ '\x27')
    match rest.dropWhile (· ≠ '\x27') with
    | _ :: after => if key.isEmpty then .error cs else .ok (some (String.ofList key), after)
    | [] => .error cs
  | _ =>
    let key := cs.takeWhile isNameChar
    if key.isEmpty then .error cs
    else .ok (some (String.ofList key), cs.dropWhile isNameChar)

/-- The text up to the first quote that no backslash precedes, and the text behind it; `held`
is the text so far in reverse. -/
def untilQuote (quote : Char) : List Char → List Char → Option (List Char × List Char)
  | [], _ => none
  | c :: cs, held =>
    if c = quote ∧ held.head? ≠ some '\\' then some (held.reverse, cs)
    else untilQuote quote cs (c :: held)

/-- The text between quotes and the text behind them. If a backslash precedes every quote, the
last one closes the text. -/
def quotedText (quote : Char) (cs : List Char) : Option (List Char × List Char) :=
  match untilQuote quote cs [] with
  | some found => some found
  | none =>
    let after := (cs.reverse.takeWhile (· ≠ quote)).reverse
    if cs.contains quote then some (cs.take (cs.length - after.length - 1), after) else none

/-- The character that a letter behind a backslash stands for between double quotes. -/
def escape? : Char → Option Char
  | '\\' => some '\\'
  | '\x27' => some '\x27'
  | '\x22' => some '\x22'
  | 'a' => some '\x07'
  | 'b' => some '\x08'
  | 'f' => some '\x0c'
  | 'n' => some '\n'
  | 'r' => some '\r'
  | 't' => some '\t'
  | 'v' => some '\x0b'
  | _ => none

/-- The character that a letter behind a backslash stands for between single quotes. -/
def singleEscape? (c : Char) : Option Char :=
  if c = '\\' ∨ c = '\x27' then some c else none

/-- A text with its escapes replaced. -/
def unescape (escape : Char → Option Char) : List Char → List Char
  | '\\' :: c :: cs =>
    match escape c with
    | some d => d :: unescape escape cs
    | none => '\\' :: unescape escape (c :: cs)
  | c :: cs => c :: unescape escape cs
  | [] => []
termination_by cs => cs.length

/-- A bare value up to a comment behind blanks; `blanks` are those since the last other
character, in reverse. -/
def bareValue : List Char → List Char → List Char
  | [], _ => []
  | c :: cs, blanks =>
    if isBlank c then bareValue cs (c :: blanks)
    else if c = '#' ∧ !blanks.isEmpty then []
    else blanks.reverse ++ c :: bareValue cs []

/-- The value at the start of a text, and the rest. -/
def value? (cs : List Char) : Except (List Char) (String × List Char) :=
  match cs with
  | [] => .ok ("", [])
  | '\x27' :: rest =>
    match quotedText '\x27' rest with
    | some (v, after) => .ok (String.ofList (unescape singleEscape? v), after)
    | none => .error cs
  | '\x22' :: rest =>
    match quotedText '\x22' rest with
    | some (v, after) => .ok (String.ofList (unescape escape? v), after)
    | none => .error cs
  | _ =>
    .ok (String.ofList (bareValue (cs.takeWhile fun c => !endsLine c) []),
      cs.dropWhile fun c => !endsLine c)

/-- The text of the next line, behind a comment and the line end. -/
def lineEnd? (cs : List Char) : Except (List Char) (List Char) :=
  let rest := match cs.dropWhile isInner with
    | '#' :: comment => comment.dropWhile fun c => !endsLine c
    | _ => cs
  match rest.dropWhile isInner with
  | [] => .ok []
  | c :: next => if endsLine c then .ok next else .error rest

/-- The text behind the line in which a form was not met. -/
def skipLine (cs : List Char) : List Char :=
  (cs.dropWhile fun c => !endsLine c).drop 1

/-- A binding at the start of a text that is not blank, and the rest. -/
def binding? (cs : List Char) : Except (List Char) (Option Binding × List Char) := do
  let (name, rest) ← name? (skipExport cs)
  match rest.dropWhile isInner with
  | '=' :: rest =>
    let (v, rest) ← value? (rest.dropWhile isInner)
    return (name.map (·, some v), ← lineEnd? rest)
  | rest => return (name.map (·, none), ← lineEnd? rest)

/-- The bindings of a text; `fuel` bounds their number. -/
def bindings (cs : List Char) : Nat → List Binding
  | 0 => []
  | fuel + 1 =>
    match cs.dropWhile isBlank with
    | [] => []
    | cs =>
      match binding? cs with
      | .ok (some b, rest) => b :: bindings rest fuel
      | .ok (none, rest) => bindings rest fuel
      | .error rest => bindings (skipLine rest) fuel

/-- The bindings of a file. -/
def parse (s : String) : List Binding :=
  let cs := unifyLines s.toList
  bindings cs (cs.length + 1)

/-- The name and the default of a reference behind its opening, and the text behind it. -/
def reference? (cs : List Char) : Option (String × String × List Char) :=
  let name := cs.takeWhile fun c => c ≠ '\x7d' && c ≠ ':'
  match cs.dropWhile fun c => c ≠ '\x7d' && c ≠ ':' with
  | '\x7d' :: rest => some (String.ofList name, "", rest)
  | ':' :: '-' :: rest =>
    match rest.dropWhile (· ≠ '\x7d') with
    | _ :: after =>
      some (String.ofList name, String.ofList (rest.takeWhile (· ≠ '\x7d')), after)
    | [] => none
  | _ => none

/-- A value with its references replaced; `fuel` bounds the length. -/
def expand (find : String → Option String) (cs : List Char) : Nat → List Char
  | 0 => cs
  | fuel + 1 =>
    match cs with
    | [] => []
    | '$' :: '\x7b' :: rest =>
      match reference? rest with
      | some (name, fallback, after) =>
        ((find name).getD fallback).toList ++ expand find after fuel
      | none => '$' :: expand find ('\x7b' :: rest) fuel
    | c :: rest => c :: expand find rest fuel

end OrderFlow.EnvFile
