import Beneficiary.Json.Basic

/-!
# JSON text

A text is read into a tree that keeps what a decoder may still have to judge: repeated names,
literals without a value, values nested below the depth limit, and the place where the text
stops being well formed. A decoder that walks the tree in the order of the text meets the faults
in that order, so it can tell a text of the wrong shape from a malformed one.
-/

namespace Beneficiary.Json

open Text

/-- A JSON text as far as it is well formed. -/
inductive Source where
  | null
  | bool (value : Bool)
  /-- A number literal; without a value when it exceeds every binary64 number. -/
  | number (value : Option Number)
  /-- A string literal; without a value when half of a surrogate pair stands alone. -/
  | string (value : Option String)
  /-- The items up to the closing bracket, or up to where the text went wrong. -/
  | array (items : List Source) (closed : Bool)
  /-- The named values up to the closing brace, or up to where the text went wrong. -/
  | object (fields : List (Option String × Source)) (closed : Bool)
  /-- An array or object that opens below the depth limit. -/
  | tooDeep (value : Source)
  /-- No value can be read here. -/
  | broken
deriving Inhabited

/-- How many arrays and objects may be open at once. -/
def depthLimit : Nat := 127

/-- White space of JSON: space, tab, line feed and carriage return. -/
def isSpace (c : Char) : Bool := c = ' ' || c = '\t' || c = '\n' || c = '\r'

/-- The text after its leading white space. -/
def skipSpace (cs : List Char) : List Char := cs.dropWhile isSpace

/-- The number of four hexadecimal digits. -/
def fourDigits? (a b c d : Char) : Option Nat :=
  match hexValue? a, hexValue? b, hexValue? c, hexValue? d with
  | some w, some x, some y, some z => some (4096 * w + 256 * x + 16 * y + z)
  | _, _, _, _ => none

/-- Whether a number is the first half of a surrogate pair. -/
def isHighHalf (n : Nat) : Bool := 0xD800 ≤ n && n ≤ 0xDBFF

/-- Whether a number is the second half of a surrogate pair. -/
def isLowHalf (n : Nat) : Bool := 0xDC00 ≤ n && n ≤ 0xDFFF

/-- The character of a one-letter escape. -/
def escapeValue? (c : Char) : Option Char :=
  if c = '"' then some '"'
  else if c = '\\' then some '\\'
  else if c = '/' then some '/'
  else if c = 'b' then some (Char.ofNat 8)
  else if c = 'f' then some (Char.ofNat 12)
  else if c = 'n' then some '\n'
  else if c = 'r' then some '\r'
  else if c = 't' then some '\t'
  else none

/-- The code values of a string literal after its opening quote, and the rest of the text. An
escape of four digits may give half of a surrogate pair. -/
def scanString : List Char → Option (List Nat × List Char)
  | [] => none
  | '"' :: rest => some ([], rest)
  | '\\' :: 'u' :: a :: b :: c :: d :: rest =>
    match fourDigits? a b c d with
    | none => none
    | some n => (scanString rest).map fun (codes, after) => (n :: codes, after)
  | '\\' :: c :: rest =>
    match escapeValue? c with
    | none => none
    | some e => (scanString rest).map fun (codes, after) => (e.toNat :: codes, after)
  | c :: rest =>
    if c.toNat < 32 then none
    else (scanString rest).map fun (codes, after) => (c.toNat :: codes, after)

/-- The characters of code values, the halves of a surrogate pair joined; none when a half stands
alone. -/
def joinHalves : List Nat → Option (List Char)
  | [] => some []
  | n :: m :: rest =>
    if isHighHalf n then
      if isLowHalf m then
        (joinHalves rest).map
          (Char.ofNat (0x10000 + (n - 0xD800) * 1024 + (m - 0xDC00)) :: ·)
      else none
    else if isLowHalf n then none
    else (joinHalves (m :: rest)).map (Char.ofNat n :: ·)
  | [n] => if isHighHalf n || isLowHalf n then none else some [Char.ofNat n]

/-- A string literal after its opening quote; its value is absent when half of a surrogate pair
stands alone. -/
def readString (cs : List Char) : Option (Option String × List Char) :=
  (scanString cs).map fun (codes, rest) => ((joinHalves codes).map String.ofList, rest)

/-- The powers of ten that one scaling step applies. -/
def greatestPower : Nat := 308

/-- A significand scaled by a power of ten: each step multiplies or divides by a binary64 power
of ten and rounds. Exponents beyond the greatest power take several steps downwards and overflow
upwards. -/
def scaleByTen (fuel : Nat) (x : Binary64) (exponent : Int) : Option Binary64 :=
  match fuel with
  | 0 => none
  | fuel + 1 =>
    if exponent.natAbs ≤ greatestPower then
      let power := Binary64.ofDecimal false 1 exponent.natAbs
      if 0 ≤ exponent then
        let y := x.mul power
        if y.isFinite then some y else none
      else some (x.div power)
    else if x.magnitude = 0 then some x
    else if 0 ≤ exponent then none
    else scaleByTen fuel (x.div (Binary64.ofDecimal false 1 greatestPower))
      (exponent + greatestPower)

/-- The greatest significand kept exactly. -/
def greatestSignificand : Nat := 18446744073709551615

/-- The leading digits that fit the significand, onto the value so far, and how many digits are
left over. -/
def significand : Nat → List Char → Nat × Nat
  | value, [] => (value, 0)
  | value, c :: cs =>
    let next := 10 * value + (digitValue? c).getD 0
    if next ≤ greatestSignificand then significand next cs else (value, cs.length + 1)

/-- The number of a literal with a fraction or an exponent, or with too many digits for an
integer: the significand as binary64, scaled. Digits of the whole part that do not fit raise the
exponent, those of the fraction are dropped. -/
def scaledNumber? (negative : Bool) (whole fraction : List Char) (exponent : Int) :
    Option Binary64 :=
  let first := significand 0 whole
  let second := significand first.1 fraction
  let kept := fraction.length - second.2
  (scaleByTen (exponent.natAbs + whole.length + fraction.length + 2)
      (Binary64.ofInt second.1) (exponent + first.2 - kept)).map
    fun x => if negative then { x with negative := true } else x

/-- The exponent of a number literal: the digits after the letter and an optional sign. -/
def readExponent : List Char → Option (Int × List Char)
  | c :: rest =>
    if c = 'e' ∨ c = 'E' then
      let (negative, body) := match rest with
        | '-' :: ds => (true, ds)
        | '+' :: ds => (false, ds)
        | ds => (false, ds)
      let (digits, after) := takeDigits none body
      if digits.isEmpty then none
      else
        let value : Int := digitsValue digits
        some (if negative then -value else value, after)
    else some (0, c :: rest)
  | [] => some (0, [])

/-- Whether a text starts with the letter of an exponent. -/
def startsExponent : List Char → Bool
  | c :: _ => c = 'e' || c = 'E'
  | [] => false

/-- A number literal after its sign: no leading zero, digits on both sides of a point. -/
def readNumber (negative : Bool) (cs : List Char) : Option (Option Number × List Char) :=
  let (whole, afterWhole) := takeDigits none cs
  let leadingZero := match whole with
    | '0' :: _ :: _ => true
    | _ => false
  if whole.isEmpty || leadingZero then none
  else
    match afterWhole with
    | '.' :: rest =>
      let (fraction, afterFraction) := takeDigits none rest
      if fraction.isEmpty then none
      else (readExponent afterFraction).map fun (exponent, after) =>
        ((scaledNumber? negative whole fraction exponent).map Number.float, after)
    | _ =>
      if startsExponent afterWhole then
        (readExponent afterWhole).map fun (exponent, after) =>
          ((scaledNumber? negative whole [] exponent).map Number.float, after)
      else
        let n := digitsValue whole
        let z : Int := if negative then -n else n
        if leastInteger ≤ z ∧ z ≤ greatestInteger ∧ ¬(negative ∧ n = 0) then
          some (some (.integer z), afterWhole)
        else some ((scaledNumber? negative whole [] 0).map Number.float, afterWhole)

/-- Marks a value that opened when no further level was allowed. -/
def atDepth (levels : Nat) (value : Source) : Source :=
  if levels = 0 then .tooDeep value else value

mutual

/-- The value at the start of a text, and the rest of the text when it can be read on. The first
number bounds the work, the second counts the levels that may still open. -/
def readValue : Nat → Nat → List Char → Source × Option (List Char)
  | 0, _, _ => (.broken, none)
  | fuel + 1, levels, cs =>
    match skipSpace cs with
    | '"' :: rest =>
      match readString rest with
      | some (s, after) => (.string s, some after)
      | none => (.broken, none)
    | '[' :: rest =>
      match skipSpace rest with
      | ']' :: after => (atDepth levels (.array [] true), some after)
      | [] => (atDepth levels (.array [] false), none)
      | _ =>
        let (items, after) := readItems fuel (levels - 1) rest
        (atDepth levels (.array items after.isSome), after)
    | '{' :: rest =>
      match skipSpace rest with
      | '}' :: after => (atDepth levels (.object [] true), some after)
      | _ =>
        let (fields, after) := readFields fuel (levels - 1) rest
        (atDepth levels (.object fields after.isSome), after)
    | 'n' :: 'u' :: 'l' :: 'l' :: after => (.null, some after)
    | 't' :: 'r' :: 'u' :: 'e' :: after => (.bool true, some after)
    | 'f' :: 'a' :: 'l' :: 's' :: 'e' :: after => (.bool false, some after)
    | '-' :: rest =>
      match readNumber true rest with
      | some (n, after) => (.number n, some after)
      | none => (.broken, none)
    | rest =>
      match readNumber false rest with
      | some (n, after) => (.number n, some after)
      | none => (.broken, none)

/-- The items of an array from the start of one, and the text after the closing bracket. -/
def readItems : Nat → Nat → List Char → List Source × Option (List Char)
  | 0, _, _ => ([.broken], none)
  | fuel + 1, levels, cs =>
    match readValue fuel levels cs with
    | (item, none) => ([item], none)
    | (item, some rest) =>
      match skipSpace rest with
      | ',' :: more =>
        let (items, after) := readItems fuel levels more
        (item :: items, after)
      | ']' :: after => ([item], some after)
      | _ => ([item], none)

/-- The named values of an object from the start of a name, and the text after the closing
brace. -/
def readFields : Nat → Nat → List Char → List (Option String × Source) × Option (List Char)
  | 0, _, _ => ([], none)
  | fuel + 1, levels, cs =>
    match skipSpace cs with
    | '"' :: afterQuote =>
      match readString afterQuote with
      | none => ([], none)
      | some (name, afterName) =>
        match skipSpace afterName with
        | ':' :: afterColon =>
          match readValue fuel levels afterColon with
          | (value, none) => ([(name, value)], none)
          | (value, some rest) =>
            match skipSpace rest with
            | ',' :: more =>
              let (fields, after) := readFields fuel levels more
              ((name, value) :: fields, after)
            | '}' :: after => ([(name, value)], some after)
            | _ => ([(name, value)], none)
        | _ => ([(name, .broken)], none)
    | _ => ([], none)

end

/-- A whole text: the value it starts with and whether only white space follows. -/
structure Document where
  value : Source
  ended : Bool

/-- Reads a whole text. -/
def Document.ofChars (cs : List Char) : Document :=
  match readValue (2 * cs.length + 2) depthLimit cs with
  | (value, none) => { value, ended := false }
  | (value, some rest) => { value, ended := (skipSpace rest).isEmpty }

mutual

/-- A value as the tree of its own text. -/
def toSource : Json → Source
  | .null => .null
  | .bool b => .bool b
  | .number n => .number (some n)
  | .string s => .string (some s)
  | .array items => .array (toSources items) true
  | .object fields => .object (toFieldSources fields) true

/-- The items as trees. -/
def toSources : List Json → List Source
  | [] => []
  | item :: rest => toSource item :: toSources rest

/-- The named values as trees. -/
def toFieldSources : List (String × Json) → List (Option String × Source)
  | [] => []
  | (name, value) :: rest => (some name, toSource value) :: toFieldSources rest

end

mutual

/-- Whether a value is well formed throughout. Literals without a value and any depth are well
formed. -/
def Source.isWellFormed : Source → Bool
  | .array items closed => closed && areWellFormed items
  | .object fields closed => closed && fieldsAreWellFormed fields
  | .tooDeep value => value.isWellFormed
  | .broken => false
  | _ => true

/-- Whether all items are well formed. -/
def areWellFormed : List Source → Bool
  | [] => true
  | item :: rest => item.isWellFormed && areWellFormed rest

/-- Whether all named values are well formed. -/
def fieldsAreWellFormed : List (Option String × Source) → Bool
  | [] => true
  | (_, value) :: rest => value.isWellFormed && fieldsAreWellFormed rest

end

end Beneficiary.Json
