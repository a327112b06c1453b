/-
JSON text as tokens.

`Token.scan` cuts a text into tokens by one pass over its characters (`Mode.step`): between tokens, inside a string, inside
a number or inside a keyword. It fails at the first character that cannot go on. Numbers are checked as a whole when they
end (`Number.read?`).
-/
import Landmark.Json.Value
import Landmark.Text.Hex
import Landmark.Text.Utf16

namespace Landmark

/-- digits after a point or an exponent mark, and what follows them; none without a digit -/
def Number.takeDigits? (cs : List Char) : Option (List Char × List Char) :=
  let ds := cs.takeWhile Char.isDigit
  if ds.isEmpty then none else some (ds, cs.dropWhile Char.isDigit)

/-- digits before the point: a zero alone or a number without leading zeros -/
def Number.takeWhole? (cs : List Char) : Option (List Char × List Char) :=
  match takeDigits? cs with
  | some ('0' :: _ :: _, _) => none
  | r => r

/-- digits of the fraction, if there is one -/
def Number.takeFraction? : List Char → Option (List Char × List Char)
  | '.' :: cs => takeDigits? cs
  | cs => some ([], cs)

/-- the exponent that makes up the rest of a number, if it is one -/
def Number.exponent? : List Char → Option Int
  | [] => some 0
  | e :: cs =>
    if e = 'e' ∨ e = 'E' then
      let (negative, ds) :=
        match cs with
        | '+' :: ds => (false, ds)
        | '-' :: ds => (true, ds)
        | ds => (false, ds)
      match takeDigits? ds with
      | some (ds, []) =>
        let n : Int := Nat.ofDigitChars 10 ds 0
        some (if negative then -n else n)
      | _ => none
    else none

/-- the number a text denotes -/
def Number.read? (cs : List Char) : Option Number := do
  let (negative, cs) :=
    match cs with
    | '-' :: cs => (true, cs)
    | cs => (false, cs)
  let (whole, cs) ← takeWhole? cs
  let (fraction, cs) ← takeFraction? cs
  let exponent ← exponent? cs
  return ⟨negative, Nat.ofDigitChars 10 (whole ++ fraction) 0, exponent - fraction.length,
    fraction.isEmpty && cs.isEmpty⟩

inductive Token where
  | beginArray
  | endArray
  | beginObject
  | endObject
  | colon
  | comma
  | null
  | bool (b : Bool)
  | number (n : Number)
  | string (text : Option String)
  deriving DecidableEq, Repr

namespace Token

/-- part of a string literal: a character, or a 16-bit unit given by its number -/
inductive Piece where
  | char (c : Char)
  | unit (u : Nat)
  deriving DecidableEq, Repr

/-- text of a string literal; none when it names half of a pair -/
def joinPieces : List Piece → Option (List Char)
  | [] => some []
  | .char c :: rest => (joinPieces rest).map (c :: ·)
  | .unit h :: .unit l :: rest =>
    if Utf16.isHigh h then
      if Utf16.isLow l then (joinPieces rest).map (Utf16.pairChar h l :: ·) else none
    else if Utf16.isLow h then none
    else (joinPieces (.unit l :: rest)).map (Char.ofNat h :: ·)
  | .unit u :: rest =>
    if Utf16.isHigh u || Utf16.isLow u then none else (joinPieces rest).map (Char.ofNat u :: ·)

/-- where the scanner stands; texts read so far are kept newest first -/
inductive Mode where
  | between
  | text (pieces : List Piece)
  | escape (pieces : List Piece)
  /-- in the number of a unit with `left` more digits to come -/
  | unit (pieces : List Piece) (left value : Nat)
  | number (digits : List Char)
  | word (letters : List Char)
  deriving DecidableEq, Repr

namespace Mode

def isNumberChar (c : Char) : Bool :=
  c.isDigit || c == '-' || c == '+' || c == '.' || c == 'e' || c == 'E'

/-- a keyword -/
def keyword? (letters : List Char) : Option Token :=
  if letters = ['n', 'u', 'l', 'l'] then some .null
  else if letters = ['t', 'r', 'u', 'e'] then some (.bool true)
  else if letters = ['f', 'a', 'l', 's', 'e'] then some (.bool false)
  else none

/-- what a character after a token begins -/
def start? (done : List Token) (c : Char) : Option (List Token × Mode) :=
  match c with
  | ' ' => some (done, between)
  | '\t' => some (done, between)
  | '\n' => some (done, between)
  | '\r' => some (done, between)
  | '[' => some (.beginArray :: done, between)
  | ']' => some (.endArray :: done, between)
  | '\x7b' => some (.beginObject :: done, between)
  | '\x7d' => some (.endObject :: done, between)
  | ':' => some (.colon :: done, between)
  | ',' => some (.comma :: done, between)
  | '"' => some (done, text [])
  | c =>
    if c.isDigit || c == '-' then some (done, number [c])
    else if c.isLower then some (done, word [c])
    else none

/-- ends a number or a keyword -/
def finish? (done : List Token) : Mode → Option (List Token)
  | between => some done
  | number ds => (Number.read? ds.reverse).map fun n => .number n :: done
  | word ls => (keyword? ls.reverse).map (· :: done)
  | _ => none

/-- the character a short escape stands for -/
def escaped? : Char → Option Char
  | '"' => some '"'
  | '\\' => some '\\'
  | '/' => some '/'
  | 'b' => some '\x08'
  | 'f' => some '\x0c'
  | 'n' => some '\n'
  | 'r' => some '\r'
  | 't' => some '\t'
  | _ => none

/-- one character -/
def step (done : List Token) (mode : Mode) (c : Char) : Option (List Token × Mode) :=
  match mode with
  | between => start? done c
  | text ps =>
    if c = '"' then some (.string ((joinPieces ps.reverse).map String.ofList) :: done, between)
    else if c = '\\' then some (done, escape ps)
    else if c < ' ' then none
    else some (done, text (.char c :: ps))
  | escape ps =>
    if c = 'u' then some (done, unit ps 4 0)
    else (escaped? c).map fun e => (done, text (.char e :: ps))
  | unit ps left value =>
    (Hex.digitValue? c).map fun d =>
      if left ≤ 1 then (done, text (.unit (16 * value + d) :: ps)) else (done, unit ps (left - 1) (16 * value + d))
  | number ds =>
    if isNumberChar c then some (done, number (c :: ds))
    else (finish? done (number ds)).bind fun done => start? done c
  | word ls =>
    if c.isLower then some (done, word (c :: ls))
    else (finish? done (word ls)).bind fun done => start? done c

end Mode

/-- scans on from a mode; tokens are collected newest first -/
def scanFrom (done : List Token) (mode : Mode) : List Char → Option (List Token)
  | [] => mode.finish? done
  | c :: cs =>
    match mode.step done c with
    | none => none
    | some (done, mode) => scanFrom done mode cs

/-- the tokens of a text -/
def scan (cs : List Char) : Option (List Token) :=
  (scanFrom [] .between cs).map List.reverse

end Token

end Landmark
