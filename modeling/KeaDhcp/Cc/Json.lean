import KeaDhcp.Infra.Exec
import KeaDhcp.Infra.SortedMap
import KeaDhcp.Util.LexicalCast
import KeaDhcp.Util.StrUtil

/-!
# JSON text

The reader `Element::fromJSON` and the writers `toJSON` and `prettyPrint` of `src/lib/cc/data.cc`,
over the bytes of the texts. A map has its members in the order of their keys, as a `std::map`. The
stream of the reader is the list of the bytes that are left. The recursion of the reader has a bound
(`fuel`), which `fromJSON` makes large enough.
-/

namespace Data.Json

open Infra Util

abbrev ByteString := List UInt8

/-- The type `double` of the real numbers, with `boost::lexical_cast` and `<<`. -/
structure Reals (ρ : Type) where
  cast : ByteString → Option ρ
  print : ρ → ByteString

inductive Element (ρ : Type) where
  | null
  | integer (value : Int)
  | real (value : ρ)
  | boolean (value : Bool)
  | string (value : ByteString)
  | list (elements : List (Element ρ))
  | map (members : List (ByteString × Element ρ))

/-- `JSONError`, without the file, line and position in the message. -/
inductive JSONError where
  | expected (found : Option UInt8) (chars : ByteString)
  | stringExpected | badEscape | unterminatedString
  | numberOverflow (number : ByteString)
  | badBoolean (word : ByteString) | badNull (word : ByteString)
  | unterminatedMap | unexpectedCharacter (c : UInt8) | nothingRead | extraData
  /-- The bound on the recursion, no exception of the source. -/
  | outOfFuel
  deriving DecidableEq

/-! ## Reading -/

def whitespace : ByteString := [0x20, 0x08, 0x0c, 0x0a, 0x0d, 0x09]

abbrev quote : UInt8 := 0x22

abbrev backslash : UInt8 := 0x5c

abbrev comma : UInt8 := 0x2c

abbrev colon : UInt8 := 0x3a

abbrev openBracket : UInt8 := 0x5b

abbrev closeBracket : UInt8 := 0x5d

abbrev openBrace : UInt8 := 0x7b

abbrev closeBrace : UInt8 := 0x7d

def skipChars (input chars : ByteString) : ByteString := input.dropWhile (· ∈ chars)

/-- `skipTo`: the character that was found, and the input after it and after what may be skipped. -/
def skipTo (chars maySkip : ByteString) : ByteString → Except JSONError (UInt8 × ByteString)
  | [] => .error (.expected none chars)
  | c :: input =>
    if c ∈ maySkip then skipTo chars maySkip input
    else if c ∈ chars then .ok (c, skipChars input maySkip)
    else .error (.expected (some c) chars)

/-- The character for which an escape stands. -/
def unescape (c : UInt8) : Option UInt8 :=
  if c = quote then some quote
  else if c = 0x2f then some 0x2f
  else if c = backslash then some backslash
  else if c = 0x62 then some 0x08
  else if c = 0x66 then some 0x0c
  else if c = 0x6e then some 0x0a
  else if c = 0x72 then some 0x0d
  else if c = 0x74 then some 0x09
  else none

/-- The loop of `strFromStringstream`. -/
def stringBody : ByteString → Except JSONError (ByteString × ByteString)
  | [] => .error .unterminatedString
  | c :: input =>
    if c = quote then .ok ([], input)
    else if c = backslash then
      match input with
      | [] => .error .badEscape
      | e :: input =>
        match unescape e with
        | some c => do
          let (value, input) ← stringBody input
          return (c :: value, input)
        | none => .error .badEscape
    else do
      let (value, input) ← stringBody input
      return (c :: value, input)

def strFromStringstream : ByteString → Except JSONError (ByteString × ByteString)
  | [] => .error .stringExpected
  | c :: input => if c = quote then stringBody input else .error .stringExpected

/-- `isalpha` in the C locale. -/
def isalpha (c : UInt8) : Bool := (0x41 ≤ c ∧ c ≤ 0x5a) ∨ (0x61 ≤ c ∧ c ≤ 0x7a)

/-- The characters of numbers: digits, `+`, `-`, `.`, `e` and `E`. -/
def isNumberChar (c : UInt8) : Bool :=
  IsDigit c ∨ c = 0x2b ∨ c = 0x2d ∨ c = 0x2e ∨ c = 0x65 ∨ c = 0x45

def isRealChar (c : UInt8) : Bool := c = 0x2e ∨ c = 0x65 ∨ c = 0x45

section FromJSON

variable {ρ : Type} (reals : Reals ρ) (input : ByteString)

def fromStringstreamNumber : Except JSONError (Element ρ × ByteString) :=
  let number := input.takeWhile isNumberChar
  let input := input.dropWhile isNumberChar
  if number.any isRealChar then
    match reals.cast number with
    | some value => .ok (.real value, input)
    | none => .error (.numberOverflow number)
  else
    match lexicalCastInt64 number with
    | some value => .ok (.integer value, input)
    | none => .error (.numberOverflow number)

def fromStringstreamBool : Except JSONError (Element ρ × ByteString) :=
  let word := input.takeWhile isalpha
  let input := input.dropWhile isalpha
  if word = ascii "true" then .ok (.boolean true, input)
  else if word = ascii "false" then .ok (.boolean false, input)
  else .error (.badBoolean word)

def fromStringstreamNull : Except JSONError (Element ρ × ByteString) :=
  let word := input.takeWhile isalpha
  let input := input.dropWhile isalpha
  if word = ascii "null" then .ok (.null, input) else .error (.badNull word)

def fromStringstreamString : Except JSONError (Element ρ × ByteString) := do
  let (value, input) ← strFromStringstream input
  return (.string value, input)

mutual

/-- `Element::fromJSON(std::istream&, ...)`. -/
def fromStream : (fuel : Nat) → ByteString → Except JSONError (Element ρ × ByteString)
  | 0, _ => .error .outOfFuel
  | fuel + 1, input =>
    match skipChars input whitespace with
    | [] => .error .nothingRead
    | c :: input =>
      if IsDigit c ∨ c = 0x2d ∨ c = 0x2b ∨ c = 0x2e then
        fromStringstreamNumber reals (c :: input)
      else if c = 0x74 ∨ c = 0x66 then fromStringstreamBool (c :: input)
      else if c = 0x6e then fromStringstreamNull (c :: input)
      else if c = quote then fromStringstreamString (c :: input)
      else if c = openBracket then listLoop fuel [] (skipChars input whitespace)
      else if c = openBrace then
        match skipChars input whitespace with
        | [] => .error .unterminatedMap
        | c :: input =>
          if c = closeBrace then .ok (.map [], input) else mapLoop fuel [] (c :: input)
      else .error (.unexpectedCharacter c)

/-- The loop of `fromStringstreamList`. -/
def listLoop : (fuel : Nat) → (elements : List (Element ρ)) → ByteString →
    Except JSONError (Element ρ × ByteString)
  | 0, _, _ => .error .outOfFuel
  | fuel + 1, elements, input =>
    if input.head? ≠ some closeBracket then do
      let (element, input) ← fromStream fuel input
      let elements := elements ++ [element]
      let (c, input) ← skipTo [comma, closeBracket] whitespace input
      if c = closeBracket then return (.list elements, input) else listLoop fuel elements input
    else .ok (.list elements, input.tail)

/-- The loop of `fromStringstreamMap`. -/
def mapLoop : (fuel : Nat) → (members : List (ByteString × Element ρ)) → ByteString →
    Except JSONError (Element ρ × ByteString)
  | 0, _, _ => .error .outOfFuel
  | fuel + 1, members, input => do
    let (key, input) ← strFromStringstream input
    let (_, input) ← skipTo [colon] whitespace input
    let (value, input) ← fromStream fuel input
    let members := insertEntry key value members
    let (c, input) ← skipTo [comma, closeBrace] whitespace input
    if c = closeBrace then return (.map members, input) else mapLoop fuel members input

end

def fromJSON (text : ByteString) : Except JSONError (Element ρ) := do
  let (element, input) ← fromStream reals (2 * text.length + 2) text
  if skipChars input whitespace = [] then return element else .error .extraData

end FromJSON

/-! ## Writing -/

/-- A character of a string value, with `c >= 0 && c < 0x20` for the type `char`. -/
def escapeChar (c : UInt8) : ByteString :=
  if c = quote then [backslash, c]
  else if c = backslash then [backslash, c]
  else if c = 0x08 then [backslash, 0x62]
  else if c = 0x0c then [backslash, 0x66]
  else if c = 0x0a then [backslash, 0x6e]
  else if c = 0x0d then [backslash, 0x72]
  else if c = 0x09 then [backslash, 0x74]
  else if c < 0x20 then ascii "\\u00" ++ [hexDigit (c.toNat / 16), hexDigit (c.toNat % 16)]
  else [c]
where
  hexDigit (d : Nat) : UInt8 := if d < 10 then UInt8.ofNat (0x30 + d) else UInt8.ofNat (0x57 + d)

def intText (value : Int) : ByteString :=
  if value < 0 then 0x2d :: decimal value.natAbs else decimal value.natAbs

/-- Texts one after another with a separator between them. -/
def separated (separator : ByteString) (texts : List ByteString) : ByteString :=
  (texts.intersperse separator).flatten

section Writing

variable {ρ : Type} (reals : Reals ρ)

/-- A member of a map; the key is written as it is. -/
def memberText (key value : ByteString) : ByteString :=
  quote :: key ++ [quote] ++ ascii ": " ++ value

mutual

def toJSON : Element ρ → ByteString
  | .null => ascii "null"
  | .integer value => intText value
  | .real value => reals.print value
  | .boolean value => if value then ascii "true" else ascii "false"
  | .string value => quote :: value.flatMap escapeChar ++ [quote]
  | .list elements => ascii "[ " ++ separated (ascii ", ") (elementTexts elements) ++ ascii " ]"
  | .map members =>
    [openBrace, 0x20] ++ separated (ascii ", ") (memberTexts members) ++ [0x20, closeBrace]

def elementTexts : List (Element ρ) → List ByteString
  | [] => []
  | element :: elements => toJSON element :: elementTexts elements

def memberTexts : List (ByteString × Element ρ) → List ByteString
  | [] => []
  | (key, value) :: members => memberText key (toJSON value) :: memberTexts members

end

def Element.str (element : Element ρ) : ByteString := toJSON reals element

def spaces (n : Nat) : ByteString := List.replicate n 0x20

/-- Lists and maps. -/
def Element.isComplex : Element ρ → Bool
  | .list _ => true
  | .map _ => true
  | _ => false

/-- A list that is not empty, from the texts of its elements. -/
def prettyList (complex : Bool) (indent step : Nat) (texts : List ByteString) : ByteString :=
  let separator := if complex then ascii ",\n" else ascii ", "
  let lead := if complex then spaces (indent + step) else []
  openBracket :: (if complex then ascii "\n" else ascii " ")
    ++ separated separator (texts.map (lead ++ ·))
    ++ (if complex then ascii "\n" ++ spaces indent else ascii " ") ++ [closeBracket]

/-- The order in which the members of a map are printed. -/
def commentFirst {α : Type} (members : List (ByteString × α)) : List (ByteString × α) :=
  members.filter (·.1 = ascii "comment") ++ members.filter (·.1 ≠ ascii "comment")

/-- A map that is not empty, from the keys and the texts of its members. -/
def prettyMap (indent step : Nat) (texts : List (ByteString × ByteString)) : ByteString :=
  openBrace :: ascii "\n"
    ++ separated (ascii ",\n")
      ((commentFirst texts).map fun member => spaces (indent + step) ++ memberText member.1 member.2)
    ++ ascii "\n" ++ spaces indent ++ [closeBrace]

mutual

def prettyPrint (indent step : Nat) : Element ρ → ByteString
  | .list [] => ascii "[ ]"
  | .list (element :: elements) =>
    prettyList element.isComplex indent step
      (prettyPrint (indent + step) step element :: prettyElements (indent + step) step elements)
  | .map [] => [openBrace, 0x20, closeBrace]
  | .map (member :: members) =>
    prettyMap indent step (prettyMembers (indent + step) step (member :: members))
  | .null => toJSON reals .null
  | .integer value => toJSON reals (.integer value)
  | .real value => toJSON reals (.real value)
  | .boolean value => toJSON reals (.boolean value)
  | .string value => toJSON reals (.string value)

def prettyElements (indent step : Nat) : List (Element ρ) → List ByteString
  | [] => []
  | element :: elements => prettyPrint indent step element :: prettyElements indent step elements

def prettyMembers (indent step : Nat) :
    List (ByteString × Element ρ) → List (ByteString × ByteString)
  | [] => []
  | (key, value) :: members =>
    (key, prettyPrint indent step value) :: prettyMembers indent step members

end

end Writing

end Data.Json
