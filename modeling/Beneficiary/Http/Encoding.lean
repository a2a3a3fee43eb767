import Beneficiary.Text.Blank
import Beneficiary.Text.Percent

/-!
# Encoded texts and queries

Addresses are percent-encoded. A query is a list of named values, in which a plus sign stands for a
space.
-/

namespace Beneficiary.Http

open Text

/-- The text that an encoded text stands for, if its bytes are a text. -/
def decodeText? (cs : List Char) : Option String :=
  String.fromUTF8? (ByteArray.mk (percentDecoded cs).toArray)

/-- A name or value of a query, its plus signs read as spaces. -/
def decodeFormText? (cs : List Char) : Option String :=
  decodeText? (cs.map fun c => if c = '+' then ' ' else c)

/-- The named values of a query, each name and value absent when it is no text. A name without an
equals sign has the empty value. -/
def queryValues (query : List Char) : List (Option String × Option String) :=
  (runs (· == '&') query).map fun pair =>
    (decodeFormText? (pair.takeWhile (· != '=')),
      decodeFormText? ((pair.dropWhile (· != '=')).drop 1))

end Beneficiary.Http
