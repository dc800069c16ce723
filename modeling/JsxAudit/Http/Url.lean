import JsxAudit.Text.Blank
import JsxAudit.Text.Utf8

/-!
Addresses of the web, their normal form, and references relative to them.

In the normal form letters of scheme and host are small, the number behind the host is left out
where it goes without saying, steps in the path are carried out, and characters that an address may
not hold are written as bytes.
-/

namespace JsxAudit.Http

/-- An address in parts. A reference may lack any of them. -/
structure Url where
  scheme : Option String
  authority : Option String
  path : String
  query : Option String
  fragment : Option String
  deriving DecidableEq, Repr

namespace Url

/-! ### Parts -/

/-- The characters before the first mark, and those after it if there is one. -/
def cutAt (mark : Char) (cs : List Char) : List Char × Option (List Char) :=
  (cs.takeWhile (· != mark),
    match cs.dropWhile (· != mark) with
    | [] => none
    | _ :: rest => some rest)

def isSchemeChar (c : Char) : Bool :=
  c.isAlphanum || c == '+' || c == '.' || c == '-'

/-- The scheme at the front and what follows its colon. -/
def cutScheme (cs : List Char) : Option String × List Char :=
  match cutAt ':' cs with
  | (c :: name, some rest) =>
    if c.isAlpha && name.all isSchemeChar then (some (String.ofList (c :: name)), rest)
    else (none, cs)
  | _ => (none, cs)

def ofString (s : String) : Url :=
  let (front, fragment) := cutAt '#' s.toList
  let (front, query) := cutAt '?' front
  let (scheme, rest) := cutScheme front
  let (authority, path) := match rest with
    | '/' :: '/' :: rest =>
      (some (String.ofList (rest.takeWhile (· != '/'))), rest.dropWhile (· != '/'))
    | _ => (none, rest)
  { scheme, authority, path := String.ofList path, query := query.map String.ofList
    fragment := fragment.map String.ofList }

def toText (u : Url) : String :=
  ((u.scheme.map (· ++ ":")).getD "") ++ ((u.authority.map ("//" ++ ·)).getD "") ++ u.path ++
    ((u.query.map ("?" ++ ·)).getD "") ++ ((u.fragment.map ("#" ++ ·)).getD "")

/-! ### Normal form -/

def isHexDigit (c : Char) : Bool :=
  c.isDigit || ('a' ≤ c && c ≤ 'f') || ('A' ≤ c && c ≤ 'F')

/-- A byte after a percent sign. -/
def escapeByte (b : UInt8) : List Char :=
  let digit (n : Nat) : Char := (Nat.digitChar n).toUpper
  ['%', digit (b.toNat / 16), digit (b.toNat % 16)]

/-- Characters that stand for themselves anywhere but in `reserved`. -/
def isPlain (reserved : List Char) (c : Char) : Bool :=
  0x20 < c.toNat && c.toNat < 0x7F && !reserved.contains c

/-- The text with every other character written as bytes. -/
def escape (reserved : List Char) (s : String) : String :=
  String.ofList (s.toList.flatMap fun c =>
    if isPlain reserved c then [c] else (String.utf8EncodeChar c).flatMap escapeByte)

def queryReserved : List Char := ['"', '#', '<', '>']

def pathReserved : List Char := queryReserved ++ ['?', Char.ofNat 96, '{', '}']

def fragmentReserved : List Char := ['"', '<', '>', Char.ofNat 96]

/-- Segments with steps carried out: a step up takes the segment before it away, unless only the
empty one at the front is left. -/
def normalSteps (segments : List String) : List String :=
  (segments.foldl (fun (done : List String) s =>
    if s = "." then done
    else if s = ".." then (if done = [] ∨ done = [""] then done else done.drop 1)
    else s :: done) []).reverse

def normalPath (path : String) : String :=
  "/".intercalate (normalSteps (Text.splitOn '/' path))

def asciiLower (s : String) : String :=
  String.ofList (s.toList.map Char.toLower)

/-- The number behind a host that goes without saying. -/
def usualNumber (scheme : Option String) : String :=
  match scheme with
  | some "http" => "80"
  | some "https" => "443"
  | _ => ""

/-- Host in small letters and the number behind it, unless that is the usual one. -/
def normalAuthority (scheme : Option String) (authority : String) : String :=
  let (user, host) := match cutAt '@' authority.toList with
    | (user, some host) => (String.ofList user ++ "@", host)
    | (host, none) => ("", host)
  let (name, number) := cutAt ':' host
  let number := String.ofList (number.getD [])
  user ++ asciiLower (String.ofList name) ++
    if number = "" || number = usualNumber scheme then "" else ":" ++ number

def normal (u : Url) : Url :=
  let scheme := u.scheme.map asciiLower
  { scheme, authority := u.authority.map (normalAuthority scheme)
    path := escape pathReserved
      (if u.scheme.isSome || u.authority.isSome then normalPath u.path else u.path)
    query := u.query.map (escape queryReserved)
    fragment := u.fragment.map (escape fragmentReserved) }

/-! ### References -/

/-- The segments of a path without its name. -/
def folderSegments (path : String) : List String :=
  let segments := Text.splitOn '/' path
  if segments.getLast? = some "" then segments else segments.dropLast

/-- Segments without the empty ones between the first and the last. -/
def withoutGaps (segments : List String) : List String :=
  segments.take 1 ++ (segments.drop 1).dropLast.filter (· != "") ++
    (segments.drop 1).getLast?.toList

/-- A path as seen from the folder of the base. What stands for the whole path keeps its empty
segments. -/
def mergedPath (base path : String) : String :=
  let own := Text.splitOn '/' path
  let segments :=
    if path.toList.head? = some '/' then own else withoutGaps (folderSegments base ++ own)
  let steps := (segments.foldl (fun (done : List String) s =>
    if s = "." then done else if s = ".." then done.drop 1 else s :: done) []).reverse
  let closing := match segments.getLast? with
    | some "." | some ".." => [""]
    | _ => []
  match "/".intercalate (steps ++ closing) with
  | "" => "/"
  | joined => joined

/-- A part that is given and not empty. -/
def given (part : Option String) : Option String :=
  part.filter (· != "")

/-- The host of an authority. -/
def hostOf (authority : String) : String :=
  let cs := authority.toList
  let host := (cutAt '@' cs).2.getD cs
  String.ofList (cutAt ':' host).1

/-- The address that a reference without a scheme means at a base. Of its parts those that are empty
count as not given. -/
def joinRelative (base reference : Url) : Url :=
  let query := given reference.query
  let fragment := given reference.fragment
  match given reference.authority with
  | some authority => { reference with scheme := base.scheme, authority, query, fragment }
  | none =>
    if reference.path = "" then { base with query := query.or base.query, fragment }
    else
      { scheme := base.scheme, authority := base.authority
        path := mergedPath base.path reference.path, query, fragment }

/-- The address that a reference means at a base. One with a scheme but without a host means the
host of the base. -/
def join (base reference : Url) : Url :=
  if reference.scheme.isSome then
    match given reference.authority with
    | some _ => reference
    | none => { reference with authority := base.authority.map hostOf }
  else joinRelative base reference

/-- The address of a redirection from one address to a location. The fragment is kept unless the
location has one. -/
def redirected (base : String) (location : String) : String :=
  let base := ofString base
  let target := (join base (ofString location)).normal
  let fragment := ((given target.fragment).or (given base.fragment)).or target.fragment
  { target with fragment }.toText

/-- Statuses that send the asker elsewhere. -/
def redirectStatuses : List Nat :=
  [301, 302, 303, 307, 308]

/-- The value of a header, its name in any case of letters. -/
def header? (name : String) (headers : List (String × String)) : Option String :=
  (headers.find? fun h => asciiLower h.1 = name).map (·.2)

/-- The place to which a reply sends the asker. -/
def redirect? (url : String) (status : Nat) (headers : List (String × String)) : Option String :=
  if redirectStatuses.contains status then (header? "location" headers).map (redirected url)
  else none

/-- An address as it is sent. -/
def normalText (s : String) : String :=
  (ofString s).normal.toText

end Url

end JsxAudit.Http
