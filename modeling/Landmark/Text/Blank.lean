/-
Blank characters and the words between them.

`isBlank` is the Unicode property White_Space, all twenty-five characters of it; `words` cuts a text at every run of
blanks and drops the empty pieces.
-/
namespace Landmark.Text

/-- code points with the property White_Space -/
def blanks : List Nat :=
  [0x09, 0x0A, 0x0B, 0x0C, 0x0D, 0x20, 0x85, 0xA0, 0x1680, 0x2000, 0x2001, 0x2002, 0x2003, 0x2004, 0x2005, 0x2006,
    0x2007, 0x2008, 0x2009, 0x200A, 0x2028, 0x2029, 0x202F, 0x205F, 0x3000]

def isBlank (c : Char) : Bool :=
  blanks.contains c.toNat

/-- puts a word in front unless it is empty -/
def pushWord (w : List Char) (ws : List (List Char)) : List (List Char) :=
  if w.isEmpty then ws else w :: ws

/-- puts one more character in front: the word a text starts with (empty at a blank) and the words after it -/
def wordStep (c : Char) (acc : List Char × List (List Char)) : List Char × List (List Char) :=
  if isBlank c then ([], pushWord acc.1 acc.2) else (c :: acc.1, acc.2)

/-- the maximal runs of characters that are not blank, in order -/
def words (cs : List Char) : List (List Char) :=
  let acc := cs.foldr wordStep ([], [])
  pushWord acc.1 acc.2

end Landmark.Text
