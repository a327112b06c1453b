/-
The grammar of JSON texts.

`Json.Spelled` relates a value to all the ways it may be written: with blanks wherever they may stand, with strings escaped in
any way and numbers in any of their forms. An object may hold a key more than once. Nothing here mentions how a text is read.
- `Number.Spelled`: a whole part, perhaps a fraction, perhaps an exponent.
- `Token.Literal`: a string literal, and its text; one that names half of a pair of units has none.
- `Json.IsText`: a value with blanks around it.
-/
import Landmark.Json.Token
import Landmark.Proofs.Text.Hex

namespace Landmark

/-! ## Numbers -/

namespace Number

/-- one decimal digit or more -/
def Digits (ds : List Char) : Prop :=
  ds ≠ [] ∧ ∀ c ∈ ds, c.isDigit = true

/-- digits before the point; a zero in front stands alone -/
def Whole (ds : List Char) : Prop :=
  Digits ds ∧ ∀ c cs, ds ≠ '0' :: c :: cs

/-- a fraction and its digits, or nothing -/
inductive Fraction : List Char → List Char → Prop
  | absent : Fraction [] []
  | present {ds : List Char} (h : Digits ds) : Fraction ('.' :: ds) ds

/-- an exponent and its value, or nothing -/
inductive Exponent : List Char → Int → Prop
  | absent : Exponent [] 0
  | bare {mark : Char} {ds : List Char} (hmark : mark = 'e' ∨ mark = 'E') (h : Digits ds) :
    Exponent (mark :: ds) (Nat.ofDigitChars 10 ds 0)
  | plus {mark : Char} {ds : List Char} (hmark : mark = 'e' ∨ mark = 'E') (h : Digits ds) :
    Exponent (mark :: '+' :: ds) (Nat.ofDigitChars 10 ds 0)
  | minus {mark : Char} {ds : List Char} (hmark : mark = 'e' ∨ mark = 'E') (h : Digits ds) :
    Exponent (mark :: '-' :: ds) (-(Nat.ofDigitChars 10 ds 0 : Int))

/-- the characters spell the number -/
inductive Spelled : Number → List Char → Prop
  | mk (negative : Bool) {whole fraction digits exponent : List Char} {e : Int} (hwhole : Whole whole)
    (hfraction : Fraction fraction digits) (hexponent : Exponent exponent e) :
    Spelled ⟨negative, Nat.ofDigitChars 10 (whole ++ digits) 0, e - digits.length, fraction.isEmpty && exponent.isEmpty⟩
      ((if negative then ['-'] else []) ++ (whole ++ (fraction ++ exponent)))

end Number

/-! ## String literals -/

namespace Token

/-- escapes of one letter, and what they stand for -/
def shortEscapes : List (Char × Char) :=
  [('"', '"'), ('\\', '\\'), ('/', '/'), ('b', '\x08'), ('f', '\x0c'), ('n', '\n'), ('r', '\r'), ('t', '\t')]

/-- the characters spell one piece of a literal -/
inductive Piece.Spelled : Piece → List Char → Prop
  | plain {c : Char} (hcontrol : ¬ c < ' ') (hquote : c ≠ '"') (hbackslash : c ≠ '\\') : Spelled (.char c) [c]
  | short {e c : Char} (h : (e, c) ∈ shortEscapes) : Spelled (.char c) ['\\', e]
  | unit {c₁ c₂ c₃ c₄ : Char} {n₁ n₂ n₃ n₄ : Nat} (h₁ : Hex.IsDigit c₁ n₁) (h₂ : Hex.IsDigit c₂ n₂)
    (h₃ : Hex.IsDigit c₃ n₃) (h₄ : Hex.IsDigit c₄ n₄) :
    Spelled (.unit (16 * (16 * (16 * n₁ + n₂) + n₃) + n₄)) ['\\', 'u', c₁, c₂, c₃, c₄]

/-- the characters spell the pieces one after the other -/
inductive Pieces : List Piece → List Char → Prop
  | nil : Pieces [] []
  | cons {p : Piece} {ps : List Piece} {cs rest : List Char} (hp : p.Spelled cs) (hps : Pieces ps rest) :
    Pieces (p :: ps) (cs ++ rest)

/-- the pieces make this text; two units may make one character, and half of a pair makes none -/
inductive Reads : List Piece → List Char → Prop
  | nil : Reads [] []
  | char (c : Char) {ps : List Piece} {cs : List Char} (h : Reads ps cs) : Reads (.char c :: ps) (c :: cs)
  | unit {u : Nat} {ps : List Piece} {cs : List Char} (hhigh : Utf16.isHigh u = false) (hlow : Utf16.isLow u = false)
    (h : Reads ps cs) : Reads (.unit u :: ps) (Char.ofNat u :: cs)
  | pair {u v : Nat} {ps : List Piece} {cs : List Char} (hhigh : Utf16.isHigh u = true) (hlow : Utf16.isLow v = true)
    (h : Reads ps cs) : Reads (.unit u :: .unit v :: ps) (Utf16.pairChar u v :: cs)

/-- the characters spell a string literal; its text is the one its pieces make, if they make one -/
inductive Literal : Option String → List Char → Prop
  | mk {text : Option String} {ps : List Piece} {cs : List Char} (hps : Pieces ps cs)
    (htext : ∀ s : String, text = some s ↔ Reads ps s.toList) : Literal text ('"' :: (cs ++ ['"']))

end Token

/-! ## Values -/

namespace Json

/-- blanks, as many as one likes -/
def Blank (w : List Char) : Prop :=
  ∀ c ∈ w, c = ' ' ∨ c = '\t' ∨ c = '\n' ∨ c = '\r'

mutual

/-- the characters spell the value -/
inductive Spelled : Json → List Char → Prop
  | null : Spelled .null ['n', 'u', 'l', 'l']
  | yes : Spelled (.bool true) ['t', 'r', 'u', 'e']
  | no : Spelled (.bool false) ['f', 'a', 'l', 's', 'e']
  | number {n : Number} {cs : List Char} (h : n.Spelled cs) : Spelled (.number n) cs
  | string {text : Option String} {cs : List Char} (h : Token.Literal text cs) : Spelled (.string text) cs
  | emptyArray {w : List Char} (hw : Blank w) : Spelled (.array []) ('[' :: (w ++ [']']))
  | array {vs : List Json} {cs : List Char} (h : Items vs cs) : Spelled (.array vs) ('[' :: (cs ++ [']']))
  | emptyObject {w : List Char} (hw : Blank w) : Spelled (.object []) ('\x7b' :: (w ++ ['\x7d']))
  | object {ms : List (Option String × Json)} {cs : List Char} (h : Members ms cs) :
    Spelled (.object ms) ('\x7b' :: (cs ++ ['\x7d']))

/-- items, at least one, with commas between them -/
inductive Items : List Json → List Char → Prop
  | last {v : Json} {w cs w' : List Char} (hw : Blank w) (hv : Spelled v cs) (hw' : Blank w') :
    Items [v] (w ++ (cs ++ w'))
  | more {v : Json} {vs : List Json} {w cs w' rest : List Char} (hw : Blank w) (hv : Spelled v cs) (hw' : Blank w')
    (hvs : Items vs rest) : Items (v :: vs) (w ++ (cs ++ (w' ++ ',' :: rest)))

/-- members, at least one, with commas between them -/
inductive Members : List (Option String × Json) → List Char → Prop
  | last {k : Option String} {v : Json} {w ks w' u cs u' : List Char} (hw : Blank w) (hk : Token.Literal k ks)
    (hw' : Blank w') (hu : Blank u) (hv : Spelled v cs) (hu' : Blank u') :
    Members [(k, v)] (w ++ (ks ++ (w' ++ ':' :: (u ++ (cs ++ u')))))
  | more {k : Option String} {v : Json} {ms : List (Option String × Json)} {w ks w' u cs u' rest : List Char}
    (hw : Blank w) (hk : Token.Literal k ks) (hw' : Blank w') (hu : Blank u) (hv : Spelled v cs) (hu' : Blank u')
    (hms : Members ms rest) :
    Members ((k, v) :: ms) (w ++ (ks ++ (w' ++ ':' :: (u ++ (cs ++ (u' ++ ',' :: rest))))))

end

/-- the text holds the value, and blanks around it -/
def IsText (v : Json) (text : String) : Prop :=
  ∃ w cs w', Blank w ∧ v.Spelled cs ∧ Blank w' ∧ text.toList = w ++ (cs ++ w')

end Json

end Landmark
