/-
From JSON values to text.

`compact` writes without any blank; `pretty` puts every member and item on a line of its own, two blanks deeper than its
container, and one blank after a colon. Strings escape the quote, the backslash and control characters, nothing else.
-/
import Landmark.Json.Value
import Landmark.Text.Hex

namespace Landmark

namespace Json

/-- a character inside a string literal -/
def escapeChar (c : Char) : List Char :=
  if c = '"' then ['\\', '"']
  else if c = '\\' then ['\\', '\\']
  else if c = '\x08' then ['\\', 'b']
  else if c = '\x0c' then ['\\', 'f']
  else if c = '\n' then ['\\', 'n']
  else if c = '\r' then ['\\', 'r']
  else if c = '\t' then ['\\', 't']
  else if c < ' ' then
    ['\\', 'u', '0', '0', (Hex.digit (c.toNat / 16)).toLower, (Hex.digit (c.toNat % 16)).toLower]
  else [c]

/-- string literal -/
def quote (s : String) : List Char :=
  '"' :: s.toList.flatMap escapeChar ++ ['"']

/-- string literal of a string that may have no text -/
def quoteAny : Option String → List Char
  | some s => quote s
  | none => ['"', '\\', 'u', 'd', '8', '0', '0', '"']

def numberText (n : Number) : List Char :=
  (if n.negative then ['-'] else []) ++ Nat.toDigits 10 n.mantissa
    ++ (if n.integral then [] else 'e' :: (toString n.exponent).toList)

/-- how a document is laid out on lines -/
inductive Layout where
  | compact
  | pretty
  deriving DecidableEq, Repr

namespace Layout

/-- line break and indent at a depth -/
def lineBreak : Layout → Nat → List Char
  | compact, _ => []
  | pretty, depth => '\n' :: List.replicate (2 * depth) ' '

/-- what stands between a key and its value -/
def colon : Layout → List Char
  | compact => [':']
  | pretty => [':', ' ']

end Layout

mutual

/-- text of a value whose container is `depth` levels deep -/
def write (layout : Layout) (depth : Nat) : Json → List Char
  | null => ['n', 'u', 'l', 'l']
  | bool true => ['t', 'r', 'u', 'e']
  | bool false => ['f', 'a', 'l', 's', 'e']
  | number n => numberText n
  | string t => quoteAny t
  | array [] => ['[', ']']
  | array (v :: vs) =>
    '[' :: layout.lineBreak (depth + 1) ++ (v.write layout (depth + 1) ++ writeItems layout (depth + 1) vs)
      ++ layout.lineBreak depth ++ [']']
  | object [] => ['\x7b', '\x7d']
  | object ((k, v) :: ms) =>
    '\x7b' :: layout.lineBreak (depth + 1)
      ++ (quoteAny k ++ layout.colon ++ v.write layout (depth + 1) ++ writeMembers layout (depth + 1) ms)
      ++ layout.lineBreak depth ++ ['\x7d']

/-- further items, each after a comma -/
def writeItems (layout : Layout) (depth : Nat) : List Json → List Char
  | [] => []
  | v :: vs => ',' :: layout.lineBreak depth ++ v.write layout depth ++ writeItems layout depth vs

/-- further members, each after a comma -/
def writeMembers (layout : Layout) (depth : Nat) : List (Option String × Json) → List Char
  | [] => []
  | (k, v) :: ms =>
    ',' :: layout.lineBreak depth ++ quoteAny k ++ layout.colon ++ v.write layout depth ++ writeMembers layout depth ms

end

/-- text without blanks -/
def compact (v : Json) : String :=
  String.ofList (v.write .compact 0)

/-- text with a line for every member and item -/
def pretty (v : Json) : String :=
  String.ofList (v.write .pretty 0)

end Json

end Landmark
