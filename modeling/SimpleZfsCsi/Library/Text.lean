import Mathlib.Algebra.Group.Int.Defs
import Mathlib.Algebra.Group.Nat.Defs
import Mathlib.Data.List.Basic
import Mathlib.Data.List.Infix
import Mathlib.Data.String.Basic

/-!
# Text

The functions of Go's `strings` and `path` packages that names and paths go through,
defined on the characters of a string.
-/

namespace SimpleZfsCsi.Library.Text

/-- `strings.Split(s, sep)` for a separator of one character. -/
def split (sep : Char) (s : String) : List String := (s.toList.splitOn sep).map String.ofList

/-- `strings.Join(parts, sep)`. -/
def join (sep : String) (parts : List String) : String := sep.intercalate parts

/-- `strings.HasPrefix(s, start)`. -/
def startsWith (s start : String) : Bool := start.toList.isPrefixOf s.toList

/-- `strings.HasSuffix(s, tail)`. -/
def endsWith (s tail : String) : Bool := tail.toList.isSuffixOf s.toList

/-- `strings.TrimPrefix(s, start)`. -/
def trimStart (s start : String) : String :=
  if startsWith s start then String.ofList (s.toList.drop start.toList.length) else s

/-- Drop the characters that satisfy `p` at both ends. -/
def trimWhere (p : Char → Bool) (s : String) : String :=
  String.ofList (((s.toList.dropWhile p).reverse.dropWhile p).reverse)

/-- `strings.Trim(s, "/")`. -/
def trimSlashes (s : String) : String := trimWhere (· == '/') s

/-- `strings.TrimLeft(s, "/")`. -/
def trimLeftSlashes (s : String) : String := String.ofList (s.toList.dropWhile (· == '/'))

/-- `unicode.IsSpace`. -/
def isSpace (c : Char) : Bool :=
  c ∈ ['\t', '\n', '\x0b', '\x0c', '\r', ' ', '\u0085', '\u00a0', '\u1680', '\u2028', '\u2029',
    '\u202f', '\u205f', '\u3000'] || ('\u2000' ≤ c && c ≤ '\u200a')

/-- `strings.TrimSpace(s)`. -/
def trimSpace (s : String) : String := trimWhere isSpace s

/-- `strings.Cut(s, sep)` for a separator of one character: what is before it, what is after
it, and whether it was found. -/
def cut (sep : Char) (s : String) : String × String × Bool :=
  match s.toList.dropWhile (· != sep) with
  | [] => (s, "", false)
  | _ :: rest => (String.ofList (s.toList.takeWhile (· != sep)), String.ofList rest, true)

/-- What is before the last `sep`, and what is after it; nothing is before it if there is none. -/
def cutLast (sep : Char) (s : String) : Option String × String :=
  match s.toList.reverse.dropWhile (· != sep) with
  | [] => (none, s)
  | _ :: rest => (some (String.ofList rest.reverse),
      String.ofList (s.toList.reverse.takeWhile (· != sep)).reverse)

/-- `strings.Contains(s, part)`. -/
def contains (s part : String) : Bool := decide (part.toList <:+: s.toList)

/-- `unicode.ToLower`, on the characters whose lower case is an ASCII letter: besides the ASCII
letters, the Kelvin sign and the dotted capital I. -/
def lowerChar (c : Char) : Char :=
  if c = '\u212a' then 'k' else if c = '\u0130' then 'i' else c.toLower

/-- `strings.ToLower`. -/
def toLower (s : String) : String := String.ofList (s.toList.map lowerChar)

/-- One element of a path put on the stack of those before it, the last one first. -/
def cleanStep (rooted : Bool) (stack : List String) (elem : String) : List String :=
  if elem = "" ∨ elem = "." then stack
  else if elem = ".." then
    match stack with
    | [] => if rooted then [] else [".."]
    | top :: rest => if top = ".." then ".." :: stack else rest
  else elem :: stack

/-- `path.Clean`. -/
def clean (p : String) : String :=
  let rooted := startsWith p "/"
  let elems := ((split '/' p).foldl (cleanStep rooted) []).reverse
  if rooted then "/" ++ join "/" elems
  else if elems.isEmpty then "." else join "/" elems

/-- `path.Join(a, b)`. -/
def joinPath (a b : String) : String :=
  let parts := [a, b].filter (· ≠ "")
  if parts.isEmpty then "" else clean (join "/" parts)

/-- `path.Dir`. -/
def dir (p : String) : String :=
  match (cutLast '/' p).1 with
  | none => "."
  | some d => clean (d ++ "/")

/-- `path.Base`. -/
def base (p : String) : String :=
  match p.toList.reverse.dropWhile (· == '/') with
  | [] => if p = "" then "." else "/"
  | l => String.ofList (l.takeWhile (· != '/')).reverse

/-- The value of a string of decimal digits. -/
def digits? (l : List Char) : Option Nat :=
  if l.isEmpty ∨ ¬ l.all Char.isDigit then none
  else some (l.foldl (fun n c => n * 10 + (c.toNat - '0'.toNat)) 0)

/-- `strconv.ParseInt(s, 10, 64)`: the value, and whether there was no error. -/
def parseInt (s : String) : Int × Bool :=
  match s.toList with
  | '-' :: rest =>
    match digits? rest with
    | none => (0, false)
    | some n => if n ≤ 2 ^ 63 then (-(n : Int), true) else (-(2 ^ 63 : Int), false)
  | l =>
    match digits? (if l.head? = some '+' then l.tail else l) with
    | none => (0, false)
    | some n => if n < 2 ^ 63 then ((n : Int), true) else ((2 ^ 63 - 1 : Int), false)

end SimpleZfsCsi.Library.Text
