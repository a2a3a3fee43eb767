import Beneficiary.Text.Blank
import Beneficiary.Text.Numeral

/-!
# Media types

A media type is a type and a subtype of token characters, compared without regard to case, and
parameters after semicolons. The value of a parameter is a token or stands in quotes, where a
backslash is a character like any other and the first character may be a quote. JSON is the subtype
`json` of `application`, also with a suffix, and every subtype with the suffix `json`.
-/

namespace Beneficiary.Http

open Text

/-- Whether a character may stand in a token. -/
def isTokenChar (c : Char) : Bool :=
  isDigit c || ('a' ≤ c && c ≤ 'z') || ('A' ≤ c && c ≤ 'Z')
    || "!#$%&'*+-.^_`|~".toList.contains c

/-- Where a reader of parameters stands. -/
inductive ParameterState where
  /-- Before a parameter. -/
  | start
  | name
  /-- After the equals sign. -/
  | value
  | token
  /-- After the opening quote. -/
  | quote
  | quoted
  /-- After the closing quote. -/
  | closed
deriving DecidableEq, Repr

/-- Whether a character may stand between quotes: those that are printed, of seven bits. -/
def isQuotable (c : Char) : Bool := 31 < c.toNat && c.toNat < 127

namespace ParameterState

/-- The state after one more character, none when the text is no list of parameters. -/
def step (state : ParameterState) (c : Char) : Option ParameterState :=
  match state with
  | start => if c = ' ' then some start else if isTokenChar c then some name else none
  | name => if c = '=' then some value else if isTokenChar c then some name else none
  | value => if c = '"' then some quote else if isTokenChar c then some token else none
  | token => if c = ';' then some start else if isTokenChar c then some token else none
  | quote => if isQuotable c then some quoted else none
  | quoted => if c = '"' then some closed else if isQuotable c then some quoted else none
  | closed => if c = ';' then some start else if c = ' ' then some closed else none

/-- Whether a text may end in the state. -/
def isFinal : ParameterState → Bool
  | start => true
  | value => true
  | token => true
  | closed => true
  | _ => false

end ParameterState

/-- Whether a text after a semicolon is a list of parameters. -/
def areParameters (cs : List Char) : Bool :=
  (cs.foldlM ParameterState.step .start).any ParameterState.isFinal

/-- The last plus sign of a subtype, beyond its first character, separates a suffix. -/
def splitSuffix (subtype : List Char) : List Char × Option (List Char) :=
  let suffix := (subtype.reverse.takeWhile (· != '+')).reverse
  let before := subtype.length - suffix.length
  if 2 ≤ before then (subtype.take (before - 1), some suffix) else (subtype, none)

/-- Whether a text in lower case names JSON as subtype or suffix. -/
def isJsonSubtype (subtype : List Char) : Bool :=
  let (base, suffix) := splitSuffix subtype
  base == "json".toList || suffix == some "json".toList

/-- Whether a text is a media type of JSON. -/
def isJsonType (text : String) : Bool :=
  let cs := (lowerAscii text).toList
  let type := cs.takeWhile isTokenChar
  match cs.drop type.length with
  | '/' :: rest =>
    let subtype := rest.takeWhile isTokenChar
    let wellFormed := match rest.drop subtype.length with
      | [] => true
      | ';' :: parameters => !subtype.isEmpty && areParameters parameters
      | _ => false
    wellFormed && type == "application".toList && isJsonSubtype subtype
  | _ => false

end Beneficiary.Http
