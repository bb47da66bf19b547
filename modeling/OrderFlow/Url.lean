import OrderFlow.Failure
import OrderFlow.Text.Blank
import OrderFlow.Text.Quoted

/-!
# Addresses

An address is kept as its text. `Url.add` resolves a relative reference against a base that is
taken as a directory: outer slashes of both are dropped, then the reference is split into its
parts, its path is joined to that of the base and freed of dot segments, and the parts are put
together again. Two addresses are the same target if they differ in outer slashes only.
-/

namespace OrderFlow

open Text

/-- The text of an address. -/
structure Url where
  text : String
deriving DecidableEq

namespace Url

/-- The parts of a reference. -/
structure Parts where
  scheme : List Char
  host : List Char
  path : List Char
  params : List Char
  query : List Char
  fragment : List Char

/-- Schemes whose references may be relative. -/
def relativeSchemes : List String :=
  ["", "ftp", "http", "gopher", "nntp", "imap", "wais", "file", "https", "shttp", "mms",
   "prospero", "rtsp", "rtspu", "sftp", "svn", "svn+ssh", "ws", "wss"]

/-- Schemes with a host. -/
def hostSchemes : List String :=
  ["", "ftp", "http", "gopher", "nntp", "telnet", "imap", "wais", "file", "mms", "https",
   "shttp", "snews", "prospero", "rtsp", "rtspu", "rsync", "svn", "svn+ssh", "sftp", "nfs",
   "git", "git+ssh", "ws", "wss"]

/-- Schemes whose last segment may have parameters. -/
def paramSchemes : List String :=
  ["", "ftp", "hdl", "prospero", "http", "imap", "https", "shttp", "rtsp", "rtspu", "sip",
   "sips", "mms", "sftp", "tel"]

/-- A scheme of a list. -/
def isOneOf (schemes : List String) (scheme : List Char) : Bool :=
  schemes.contains (String.ofList scheme)

/-- A character of a scheme. -/
def isSchemeChar (c : Char) : Bool :=
  c.isAlphanum || c == '+' || c == '-' || c == '.'

/-- The text before the first occurrence of a character, and the text behind it if there is
one. -/
def cutAt (c : Char) (cs : List Char) : List Char × Option (List Char) :=
  (cs.takeWhile (· ≠ c), match cs.dropWhile (· ≠ c) with
    | [] => none
    | _ :: rest => some rest)

/-- The scheme at the start of a reference, in small letters, and the rest. -/
def splitScheme (inherited cs : List Char) : List Char × List Char :=
  match cutAt ':' cs with
  | (c :: name, some rest) =>
    if c.isAlpha && (c :: name).all isSchemeChar then ((c :: name).map Char.toLower, rest)
    else (inherited, cs)
  | _ => (inherited, cs)

/-- A character that ends a host. -/
def endsHost (c : Char) : Bool :=
  c == '/' || c == '?' || c == '#'

/-- The host behind two slashes, and the rest. -/
def splitHost : List Char → List Char × List Char
  | '/' :: '/' :: cs =>
    (cs.takeWhile fun c => !endsHost c, cs.dropWhile fun c => !endsHost c)
  | cs => ([], cs)

/-- The path up to the parameters of its last segment, and these. -/
def splitParams (cs : List Char) : List Char × List Char :=
  let segment := (cs.reverse.takeWhile (· ≠ '/')).reverse
  let before := cs.take (cs.length - segment.length)
  match cutAt ';' segment with
  | (name, some params) => (before ++ name, params)
  | (_, none) => (cs, [])

/-- Characters whose compatible forms hold a character that ends a part. -/
def disguised : List Nat :=
  [0x2047, 0x2048, 0x2049, 0x2100, 0x2101, 0x2105, 0x2106, 0x2a74, 0xfe13, 0xfe16, 0xfe55,
   0xfe56, 0xfe5f, 0xfe6b, 0xff03, 0xff0f, 0xff1a, 0xff1f, 0xff20]

/-- A group of an address of version six. -/
def isGroup (cs : List Char) : Bool :=
  !cs.isEmpty && cs.length ≤ 4
    && cs.all fun c => c.isDigit || ('a' ≤ c && c ≤ 'f') || ('A' ≤ c && c ≤ 'F')

/-- An address of version four. -/
def isVersionFour (cs : List Char) : Bool :=
  let fields := cs.splitOn '.'
  fields.length == 4 && fields.all fun f =>
    !f.isEmpty && f.length ≤ 3 && f.all Char.isDigit && natOfDigits f ≤ 255
      && (f.length == 1 || f.head? != some '0')

/-- The groups of an address of version six; a last one of version four counts as two. -/
def groups (fields : List (List Char)) : List (List Char) :=
  match fields.getLast? with
  | some last =>
    if last.contains '.' then
      if isVersionFour last then fields.dropLast ++ [['0'], ['0']] else fields
    else fields
  | none => fields

/-- An address of version six: eight groups, or fewer around one pair of colons. -/
def isVersionSix (cs : List Char) : Bool :=
  let (address, zone) := cutAt '%' cs
  let fields := groups (address.splitOn ':')
  let zoneFine := match zone with
    | none => true
    | some z => !z.isEmpty && !z.contains '%'
  let inner := fields.tail.dropLast
  let gaps := inner.countP List.isEmpty
  let edges := (fields.head?.getD []).isEmpty || (fields.getLast?.getD []).isEmpty
  let startFine := !(fields.head?.getD []).isEmpty || (fields.tail.head?.getD ['0']).isEmpty
  let endFine := !(fields.getLast?.getD []).isEmpty
    || (fields.dropLast.getLast?.getD ['0']).isEmpty
  let filled := fields.filter fun f => !f.isEmpty
  zoneFine && 3 ≤ fields.length && fields.length ≤ 9 && filled.all isGroup
    && (if gaps = 0 then fields.length == 8 && !edges
        else gaps == 1 && startFine && endFine && filled.length ≤ 7)

/-- An address of a future version: a version and a point, both followed by something. -/
def isFuture (cs : List Char) : Bool :=
  match cutAt '.' cs with
  | (_ :: version, some rest) =>
    !version.isEmpty && !rest.isEmpty
      && version.all fun c => c.isDigit || ('a' ≤ c && c ≤ 'f') || ('A' ≤ c && c ≤ 'F')
  | _ => false

/-- Hosts that a reference may have: brackets come in pairs and hold an address, and no
character is a compatible form of one that ends a part. -/
def checkHost (host : List Char) : Except ValueFault Unit := do
  if host.contains '[' != host.contains ']' then throw .hostBrackets
  if host.contains '[' then
    let inside := (cutAt ']' (((cutAt '[' host).2).getD [])).1
    if inside.head? = some 'v' then
      unless isFuture inside do throw .hostFuture
    else if isVersionFour inside then throw .hostVersionFour
    else unless isVersionSix inside do throw (.address (quoted (String.ofList inside)))
  if host.any fun c => disguised.contains c.toNat then
    throw (.hostNotNormal (String.ofList host))

/-- A character that is dropped at the start of a reference. -/
def isLeading (c : Char) : Bool :=
  c.toNat ≤ 32

/-- A character that is dropped anywhere. -/
def isDropped (c : Char) : Bool :=
  c == '\t' || c == '\r' || c == '\n'

/-- The parts of a reference, with the scheme it inherits. -/
def split (inherited : List Char) (text : List Char) : Except ValueFault Parts := do
  let cs := (text.dropWhile isLeading).filter fun c => !isDropped c
  let (scheme, cs) := splitScheme inherited cs
  let (host, cs) := splitHost cs
  checkHost host
  let (cs, fragment) := cutAt '#' cs
  let (cs, query) := cutAt '?' cs
  let (path, params) := if isOneOf paramSchemes scheme then splitParams cs else (cs, [])
  return ⟨scheme, host, path, params, query.getD [], fragment.getD []⟩

/-- A part behind its mark, unless it is empty. -/
def marked (mark : Char) (part : List Char) : List Char :=
  if part.isEmpty then [] else mark :: part

/-- The text of a reference. -/
def join (p : Parts) : List Char :=
  let path := p.path ++ marked ';' p.params
  let path :=
    if !p.host.isEmpty
        || (!p.scheme.isEmpty && isOneOf hostSchemes p.scheme && path.take 2 != ['/', '/']) then
      let path := if path.isEmpty || path.head? = some '/' then path else '/' :: path
      '/' :: '/' :: p.host ++ path
    else path
  (if p.scheme.isEmpty then [] else p.scheme ++ [':']) ++ path ++ marked '?' p.query
    ++ marked '#' p.fragment

/-- Segments without the empty ones between the first and the last. -/
def withoutEmpty : List (List Char) → List (List Char)
  | [] => []
  | first :: rest =>
    first :: (rest.dropLast.filter (fun s => !s.isEmpty) ++ rest.getLast?.toList)

/-- One more segment on a path whose segments are in reverse. -/
def descend (path : List (List Char)) (segment : List Char) : List (List Char) :=
  if segment = ['.', '.'] then path.tail
  else if segment = ['.'] then path
  else segment :: path

/-- A path without dot segments; one at the end leaves a directory. -/
def resolve (segments : List (List Char)) : List (List Char) :=
  let path := (segments.foldl descend []).reverse
  match segments.getLast? with
  | some last => if last = ['.'] ∨ last = ['.', '.'] then path ++ [[]] else path
  | none => path

/-- The segments of the directory of a path. -/
def directory (path : List Char) : List (List Char) :=
  let segments := path.splitOn '/'
  if segments.getLast? = some [] then segments else segments.dropLast

/-- The path of a reference against that of its base. -/
def joinPaths (base path : List Char) : List Char :=
  let segments :=
    if path.head? = some '/' then path.splitOn '/'
    else withoutEmpty (directory base ++ path.splitOn '/')
  let joined := ['/'].intercalate (resolve segments)
  if joined.isEmpty then ['/'] else joined

/-- A reference seen from its base. -/
def reference (base target : List Char) : Except ValueFault (List Char) := do
  if base.isEmpty then return target
  if target.isEmpty then return base
  let b ← split [] base
  let t ← split b.scheme target
  if t.scheme ≠ b.scheme || !isOneOf relativeSchemes t.scheme then return target
  if isOneOf hostSchemes t.scheme && !t.host.isEmpty then return join t
  let host := if isOneOf hostSchemes t.scheme then b.host else t.host
  if t.path.isEmpty && t.params.isEmpty then
    let query := if t.query.isEmpty then b.query else t.query
    return join { t with host, path := b.path, params := b.params, query }
  return join { t with host, path := joinPaths b.path t.path }

/-- A text without outer slashes. -/
def bare (s : String) : List Char :=
  trim (· == '/') s.toList

/-- An address below a base. -/
def add (base other : Url) : Except ValueFault Url :=
  (reference (bare base.text ++ ['/']) (bare other.text)).map fun cs => ⟨String.ofList cs⟩

/-- An address with a leading slash. -/
def addSlash (u : Url) : Url :=
  if u.text.toList.head? = some '/' then u else ⟨"/" ++ u.text⟩

/-- Two addresses that differ in outer slashes only. -/
def sameTarget (u v : Url) : Bool :=
  bare u.text == bare v.text

end Url

end OrderFlow
