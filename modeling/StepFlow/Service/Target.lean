/-
  StepFlow.Service.Target — what a request is addressed to: a path and a query.

  An address may name a scheme and a host: there is one service, and it answers for all of
  them. A path without both begins with one slash, however many are written.
  - Segments `.` and `..` are taken away before escapes are read; written as escapes they stay.
  - The escapes of a path are read twice, by who sends the request and by who receives it;
    those of a query are read once, and a `+` there is a blank.
  - Bytes that are not UTF-8 are replaced.
  - ASCII characters of an address are printable. Without a host, a path begins neither with
    two slashes nor, without a scheme, with a colon.
-/

import StepFlow.Json.Read
import StepFlow.Text.Encoding
import StepFlow.Text.Quoted

namespace StepFlow.Service

inductive AddressFault where
  | unprintable (c : Char) (index : Nat)
  | twoSlashes
  | colon
  deriving DecidableEq, Repr

namespace AddressFault

def message : AddressFault → String
  | .unprintable c index =>
    s!"Invalid non-printable ASCII character in URL, {Text.quoted c.toString} at position {index}."
  | .twoSlashes => "Relative URLs cannot have a path starting with '//'"
  | .colon => "Relative URLs cannot have a path starting with ':'"

def className : AddressFault → String
  | _ => "InvalidURL"

end AddressFault

/-! ## Escapes -/

/-- The bytes of a percent-encoded text; `plus` stands for a blank. -/
def percentDecoded (plus : Bool) : List Char → List UInt8
  | '%' :: a :: b :: cs =>
    match Json.hexValue? a, Json.hexValue? b with
    | some x, some y => UInt8.ofNat (x * 16 + y) :: percentDecoded plus cs
    | _, _ => '%'.toString.toUTF8.toList ++ percentDecoded plus (a :: b :: cs)
  | c :: cs =>
    (if plus && c == '+' then ' ' else c).toString.toUTF8.toList ++ percentDecoded plus cs
  | [] => []

def decoded (plus : Bool) (cs : List Char) : List Char := Text.lenient (percentDecoded plus cs)

/-! ## Paths -/

/-- What precedes the first such character, and what follows it. -/
def splitAt (mark : Char) (cs : List Char) : List Char × List Char :=
  (cs.takeWhile (· != mark), (cs.dropWhile (· != mark)).drop 1)

/-- Segments without `.`, and without those that a `..` takes back; the empty one at the start
    stays. -/
def resolved (before : List (List Char)) : List (List Char) → List (List Char)
  | [] => before.reverse
  | s :: rest =>
    if s == ['.'] then resolved before rest
    else if s == ['.', '.'] then resolved (if before == [[]] then before else before.tail) rest
    else resolved (s :: before) rest

def withoutDots (path : List Char) : List Char := ['/'].intercalate (resolved [] (path.splitOn '/'))

/-- A path under the root, with one slash at the start. -/
def absolute (path : List Char) : List Char := '/' :: path.dropWhile (· == '/')

/-- The empty path is the root. -/
def rooted (path : List Char) : List Char := if path.isEmpty then ['/'] else path

/-! ## Addresses -/

def isSchemeLetter (c : Char) : Bool := c.isAlphanum || c == '+' || c == '.' || c == '-'

/-- An address's scheme, if it has one, and what follows it. -/
def splitScheme (cs : List Char) : List Char × List Char :=
  let name := cs.takeWhile isSchemeLetter
  match cs.drop name.length with
  | ':' :: rest => if (name.head?.map Char.isAlpha).getD true then (name, rest) else ([], cs)
  | _ => ([], cs)

/-- An address's host, if it has one, and what follows it. -/
def splitHost : List Char → List Char × List Char
  | '/' :: '/' :: cs => (cs.takeWhile (· != '/'), cs.dropWhile (· != '/'))
  | cs => ([], cs)

structure Target where
  path : List Char
  /-- The query with its escapes. -/
  query : List Char
  deriving DecidableEq, Repr

namespace Target

def isUnprintable (c : Char) : Bool := decide (c.toNat < 32) || c.toNat == 127

/-- The path of an address without its query, its escapes unread. Only with a scheme and a host
    is it taken as it is. -/
def readPath (cs : List Char) : Except AddressFault (List Char) :=
  let (scheme, cs) := splitScheme cs
  let (host, path) := splitHost cs
  match scheme.isEmpty, host.isEmpty with
  | false, false => .ok (rooted (withoutDots path))
  | true, true =>
    if ['/', '/'].isPrefixOf path then .error .twoSlashes
    else if path.head? == some ':' then .error .colon
    else .ok (rooted (withoutDots (absolute path)))
  | _, _ => .ok (rooted (withoutDots (absolute (withoutDots path))))

def read (address : String) : Except AddressFault Target := do
  let cs := address.toList
  match cs.find? isUnprintable with
  | some c => .error (.unprintable c (cs.idxOf c))
  | none =>
    let (main, query) := splitAt '?' (splitAt '#' cs).1
    let path ← readPath main
    pure ⟨decoded false (decoded false path), query⟩

/-- The pairs of the query, in their order. -/
def pairs (t : Target) : List (String × String) :=
  let parts := (t.query.splitOn '&').filter fun p => !p.isEmpty
  parts.map fun p =>
    let (name, value) := splitAt '=' p
    (String.ofList (decoded true name), String.ofList (decoded true value))

/-- The value of a parameter: the last one counts. -/
def parameter? (t : Target) (name : String) : Option String := t.pairs.reverse.lookup name

/-- A path as the log has it: marks that would end it are escaped, and tabs and line ends are
    gone. -/
def shownPath (t : Target) : String :=
  String.ofList (t.path.flatMap fun c =>
    if c == '?' then ['%', '3', 'F'] else if c == '#' then ['%', '2', '3']
    else if c == '\\' then ['%', '5', 'C']
    else if c == '\t' || c == '\n' || c == '\r' then []
    else [c])

end Target

end StepFlow.Service
