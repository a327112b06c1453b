/-
From tokens to JSON values.

The reader is a machine with a stack of open containers (`Frame`) that takes one token at a time (`Reading.feed`), so values
may nest to any depth. `Json.parse?` reads a whole text that holds one value.
-/
import Landmark.Json.Token

namespace Landmark

/-- an open container; what it holds so far is kept newest first -/
inductive Frame where
  | array (items : List Json)
  | object (members : List (Option String × Json))
  /-- an object whose next member has its key but no value yet -/
  | member (members : List (Option String × Json)) (key : Option String)

/-- what may come next -/
inductive Wanted where
  | value
  /-- a value, or the end of the array -/
  | firstItem
  /-- a key, or the end of the object -/
  | firstKey
  | key
  | colon
  /-- a comma, or the end of the innermost container -/
  | separator
  deriving DecidableEq, Repr

/-- a value half read, or the value -/
inductive Reading where
  | open (wanted : Wanted) (frames : List Frame)
  | done (value : Json)

namespace Reading

/-- puts a finished value into the innermost container -/
def complete (v : Json) : List Frame → Option Reading
  | [] => some (.done v)
  | .array vs :: fs => some (.open .separator (.array (v :: vs) :: fs))
  | .member ms k :: fs => some (.open .separator (.object ((k, v) :: ms) :: fs))
  | .object _ :: _ => none

/-- the first token of a value -/
def begin (fs : List Frame) : Token → Option Reading
  | .null => complete .null fs
  | .bool b => complete (.bool b) fs
  | .number n => complete (.number n) fs
  | .string t => complete (.string t) fs
  | .beginArray => some (.open .firstItem (.array [] :: fs))
  | .beginObject => some (.open .firstKey (.object [] :: fs))
  | _ => none

/-- ends the innermost container -/
def close : Token → List Frame → Option Reading
  | .endArray, .array vs :: fs => complete (.array vs.reverse) fs
  | .endObject, .object ms :: fs => complete (.object ms.reverse) fs
  | _, _ => none

/-- the key of the next member -/
def takeKey : Token → List Frame → Option Reading
  | .string k, .object ms :: fs => some (.open .colon (.member ms k :: fs))
  | _, _ => none

/-- what may follow a comma -/
def afterComma : List Frame → Option Reading
  | .array vs :: fs => some (.open .value (.array vs :: fs))
  | .object ms :: fs => some (.open .key (.object ms :: fs))
  | _ => none

/-- one token -/
def feed (r : Reading) (t : Token) : Option Reading :=
  match r with
  | .done _ => none
  | .open .value fs => begin fs t
  | .open .firstItem fs => if t = .endArray then close t fs else begin fs t
  | .open .firstKey fs => if t = .endObject then close t fs else takeKey t fs
  | .open .key fs => takeKey t fs
  | .open .colon fs => if t = .colon then some (.open .value fs) else none
  | .open .separator fs => if t = .comma then afterComma fs else close t fs

/-- all tokens in order -/
def feedAll (r : Reading) : List Token → Option Reading
  | [] => some r
  | t :: ts =>
    match r.feed t with
    | none => none
    | some r => r.feedAll ts

end Reading

/-- the one value the tokens spell -/
def Json.ofTokens? (ts : List Token) : Option Json :=
  match Reading.feedAll (.open .value []) ts with
  | some (.done v) => some v
  | _ => none

/-- the one value a text holds -/
def Json.parse? (text : String) : Option Json :=
  (Token.scan text.toList).bind Json.ofTokens?

end Landmark
