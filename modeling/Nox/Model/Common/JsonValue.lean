import Mathlib.Data.Nat.Digits.Defs
import Nox.Library.Decoder
import Nox.Model.Common.StringTools

/-! # `Common::JsonValue` and its text

A `JsonValue` is a tree of arrays, booleans, 64-bit integers, nulls, objects, reals and strings.
`toString` prints it without white space, strings and keys as they are between quotes. `fromString`
reads it back by recursive descent over a `std::istream`. `readChar` takes each character with the
formatted extraction `in >> c`, which skips white space, inside string tokens too. Numbers are
scanned with `in.peek()` and the rest of the literals `true`, `false` and `null` with `in.read`,
neither of which skips anything.

An `OBJECT` is a `std::map`: its members in increasing order of their keys, compared byte by byte,
which is the order the writer visits them in. A `REAL` keeps the text `readNumber` converts with
`std::istringstream`; the conversion to a `double` and the writer's fixed format with eleven
decimals are left out, and the writer prints the text. A thrown `std::runtime_error` is an error
with its message. The recursion of the reader is bounded by fuel, twice the length of the text,
which no text the writer prints exhausts.
-/

namespace Nox.Common

/-- `JsonValue`, one constructor for each kind of `JsonValue::Type`. -/
inductive JsonValue where
  | array (values : List JsonValue)
  | bool (value : Bool)
  | integer (value : Int64)
  | nil
  | object (members : List (List UInt8 × JsonValue))
  | real (text : List UInt8)
  | string (value : List UInt8)
deriving Repr

namespace JsonValue

mutual

/-- Equality of two values, decided constructor by constructor. -/
def decEq : (a b : JsonValue) → Decidable (a = b)
  | array xs, array ys =>
    match decEqValues xs ys with
    | isTrue same => isTrue (same ▸ rfl)
    | isFalse other => isFalse fun e => other (array.inj e)
  | bool x, bool y => if same : x = y then isTrue (same ▸ rfl) else isFalse fun e => same (bool.inj e)
  | integer x, integer y =>
    if same : x = y then isTrue (same ▸ rfl) else isFalse fun e => same (integer.inj e)
  | nil, nil => isTrue rfl
  | object xs, object ys =>
    match decEqMembers xs ys with
    | isTrue same => isTrue (same ▸ rfl)
    | isFalse other => isFalse fun e => other (object.inj e)
  | real x, real y => if same : x = y then isTrue (same ▸ rfl) else isFalse fun e => same (real.inj e)
  | string x, string y => if same : x = y then isTrue (same ▸ rfl) else isFalse fun e => same (string.inj e)
  | array _, bool _ | array _, integer _ | array _, nil | array _, object _ | array _, real _ | array _, string _
  | bool _, array _ | bool _, integer _ | bool _, nil | bool _, object _ | bool _, real _ | bool _, string _
  | integer _, array _ | integer _, bool _ | integer _, nil | integer _, object _ | integer _, real _ | integer _, string _
  | nil, array _ | nil, bool _ | nil, integer _ | nil, object _ | nil, real _ | nil, string _
  | object _, array _ | object _, bool _ | object _, integer _ | object _, nil | object _, real _ | object _, string _
  | real _, array _ | real _, bool _ | real _, integer _ | real _, nil | real _, object _ | real _, string _
  | string _, array _ | string _, bool _ | string _, integer _ | string _, nil | string _, object _ | string _, real _ =>
    isFalse nofun

def decEqValues : (xs ys : List JsonValue) → Decidable (xs = ys)
  | [], [] => isTrue rfl
  | x :: xs, y :: ys =>
    match decEq x y, decEqValues xs ys with
    | isTrue same, isTrue sameRest => isTrue (same ▸ sameRest ▸ rfl)
    | isFalse other, _ => isFalse fun e => other (List.cons.inj e).1
    | _, isFalse otherRest => isFalse fun e => otherRest (List.cons.inj e).2
  | [], _ :: _ | _ :: _, [] => isFalse nofun

def decEqMembers : (xs ys : List (List UInt8 × JsonValue)) → Decidable (xs = ys)
  | [], [] => isTrue rfl
  | (key, x) :: xs, (key', y) :: ys =>
    if sameKey : key = key' then
      match decEq x y, decEqMembers xs ys with
      | isTrue same, isTrue sameRest => isTrue (sameKey ▸ same ▸ sameRest ▸ rfl)
      | isFalse other, _ => isFalse fun e => other (Prod.mk.inj (List.cons.inj e).1).2
      | _, isFalse otherRest => isFalse fun e => otherRest (List.cons.inj e).2
    else isFalse fun e => sameKey (Prod.mk.inj (List.cons.inj e).1).1
  | [], _ :: _ | _ :: _, [] => isFalse nofun

end

instance : DecidableEq JsonValue := decEq

/-! ## Members of an object -/

/-- `object.emplace(key, value)` on a `std::map`: a new member before the first greater key, and
nothing done when the key is there. -/
def emplace (key : List UInt8) (value : JsonValue) :
    List (List UInt8 × JsonValue) → List (List UInt8 × JsonValue)
  | [] => [(key, value)]
  | (name, old) :: members =>
    if key < name then (key, value) :: (name, old) :: members
    else if key = name then (name, old) :: members
    else (name, old) :: emplace key value members

/-- `object[key] = value` on a `std::map`: the member of the key replaced, or a new member before
the first greater key. -/
def assignMember (key : List UInt8) (value : JsonValue) :
    List (List UInt8 × JsonValue) → List (List UInt8 × JsonValue)
  | [] => [(key, value)]
  | (name, old) :: members =>
    if key < name then (key, value) :: (name, old) :: members
    else if key = name then (key, value) :: members
    else (name, old) :: assignMember key value members

/-- `JsonValue::getString()`. -/
def getString : JsonValue → Except String (List UInt8)
  | string value => .ok value
  | _ => .error "JsonValue type is not STRING"

/-- `JsonValue::getBool()`. -/
def getBool : JsonValue → Except String Bool
  | bool value => .ok value
  | _ => .error "JsonValue type is not BOOL"

/-! ## The writer -/

/-- The decimal digits of a number, the most significant first. -/
def decimalText (n : ℕ) : List UInt8 :=
  if n = 0 then ['0'.toUInt8] else ((Nat.digits 10 n).map fun digit => UInt8.ofNat (0x30 + digit)).reverse

/-- `out << valueInteger` for an `int64_t`: a minus sign before a negative number. -/
def integerText (value : Int64) : List UInt8 :=
  if value.toInt < 0 then '-'.toUInt8 :: decimalText value.toInt.natAbs else decimalText value.toInt.toNat

mutual

/-- `operator<<(out, jsonValue)`. -/
def write : JsonValue → List UInt8
  | array values => '['.toUInt8 :: writeElements values ++ [']'.toUInt8]
  | bool value => if value then ['t', 'r', 'u', 'e'].map Char.toUInt8 else ['f', 'a', 'l', 's', 'e'].map Char.toUInt8
  | integer value => integerText value
  | nil => ['n', 'u', 'l', 'l'].map Char.toUInt8
  | object members => '{'.toUInt8 :: writeMembers members ++ ['}'.toUInt8]
  | real text => text
  | string value => '"'.toUInt8 :: value ++ ['"'.toUInt8]

/-- The elements of an array: the first, then each of the others after a comma. -/
def writeElements : List JsonValue → List UInt8
  | [] => []
  | value :: values => write value ++ writeNextElements values

/-- The elements of an array after the first, each after a comma. -/
def writeNextElements : List JsonValue → List UInt8
  | [] => []
  | value :: values => ','.toUInt8 :: write value ++ writeNextElements values

/-- The members of an object: the first as `"key":value`, then each of the others after a comma. -/
def writeMembers : List (List UInt8 × JsonValue) → List UInt8
  | [] => []
  | (key, value) :: members =>
    '"'.toUInt8 :: key ++ ['"'.toUInt8, ':'.toUInt8] ++ write value ++ writeNextMembers members

/-- The members of an object after the first, each after a comma. -/
def writeNextMembers : List (List UInt8 × JsonValue) → List UInt8
  | [] => []
  | (key, value) :: members =>
    ','.toUInt8 :: '"'.toUInt8 :: key ++ ['"'.toUInt8, ':'.toUInt8] ++ write value ++ writeNextMembers members

end

/-- `JsonValue::toString()`. -/
def toString (value : JsonValue) : List UInt8 := value.write

/-! ## The reader -/

/-- `readChar(in)`: `in >> c`, which skips white space first. -/
def readChar : Decoder UInt8 UInt8 := fun input =>
  match input.dropWhile isSpace with
  | c :: rest => .ok (c, rest)
  | [] => .error "Unable to parse: unexpected end of stream"

theorem readChar_length {input rest : List UInt8} {c : UInt8} (read : readChar input = .ok (c, rest)) :
    rest.length < input.length := by
  unfold readChar at read
  split at read
  · rename_i skipped
    cases read
    have := (List.dropWhile_suffix isSpace (l := input)).length_le
    rw [skipped, List.length_cons] at this
    omega
  · cases read

set_option linter.unusedVariables false in
/-- `readNonWsChar(in)`: `readChar` again while it gives white space. -/
def readNonWsChar (input : List UInt8) : Except String (UInt8 × List UInt8) :=
  match read : readChar input with
  | .ok (c, rest) => if isSpace c then readNonWsChar rest else .ok (c, rest)
  | .error message => .error message
termination_by input.length
decreasing_by exact readChar_length read

set_option linter.unusedVariables false in
/-- `readStringToken(in)`, after the opening quote: what `readChar` takes up to the closing quote,
a backslash kept together with the character after it. The `while (in)` of the loop never fails,
since `readChar` throws first. -/
def readStringToken (input : List UInt8) : Except String (List UInt8 × List UInt8) :=
  match read : readChar input with
  | .error message => .error message
  | .ok (c, rest) =>
    if c = '"'.toUInt8 then .ok ([], rest)
    else if c = '\\'.toUInt8 then
      match escaped : readChar rest with
      | .error message => .error message
      | .ok (next, afterEscape) =>
        match readStringToken afterEscape with
        | .ok (value, after) => .ok (c :: next :: value, after)
        | .error message => .error message
    else
      match readStringToken rest with
      | .ok (value, after) => .ok (c :: value, after)
      | .error message => .error message
termination_by input.length
decreasing_by
  · have := readChar_length read
    have := readChar_length escaped
    omega
  · exact readChar_length read

/-- `in.putback(c)`. -/
def putback (c : UInt8) : Decoder UInt8 Unit := fun input => .ok ((), c :: input)

/-- `readTrue`, `readFalse` and `readNull`, after the first letter: `in.read` of the rest of the
literal, which reads the next characters as they are, then the comparison. A short read leaves the
buffer partly unset and the stream failed, so it ends in an error either way. -/
def readLiteral (expected : List UInt8) (value : JsonValue) : Decoder UInt8 JsonValue := fun input =>
  if input.take expected.length = expected then .ok (value, input.drop expected.length)
  else .error "Unable to parse"

/-- `JsonValue::readTrue(in)`. -/
def readTrue : Decoder UInt8 JsonValue := readLiteral (['r', 'u', 'e'].map Char.toUInt8) (bool true)

/-- `JsonValue::readFalse(in)`. -/
def readFalse : Decoder UInt8 JsonValue := readLiteral (['a', 'l', 's', 'e'].map Char.toUInt8) (bool false)

/-- `JsonValue::readNull(in)`. -/
def readNull : Decoder UInt8 JsonValue := readLiteral (['u', 'l', 'l'].map Char.toUInt8) nil

/-- `std::istringstream(text) >> value` for an `int64_t`, on a minus sign or a digit followed by
digits: the number, the bound it passes where it overflows, and 0 where there is no digit. -/
def integerValue (text : List UInt8) : Int64 :=
  let (negative, digits) := match text with
    | c :: rest => if c = '-'.toUInt8 then (true, rest) else (false, text)
    | [] => (false, [])
  if digits = [] then 0
  else
    let value : ℤ := if negative then -(decimalValue digits : ℤ) else decimalValue digits
    if value < -2 ^ 63 then Int64.minValue
    else if 2 ^ 63 ≤ value then Int64.maxValue
    else Int64.ofInt value

/-- The exponent part of `readNumber`, after a number with a dot: where `in.peek()` finds an `e`,
the `e`, an optional sign and at least one digit, each read and added to the text. -/
def readExponent (text : List UInt8) : Decoder UInt8 (List UInt8)
  | e :: input =>
    if e = 'e'.toUInt8 then
      let (sign, input) := match input with
        | s :: rest => if s = '+'.toUInt8 ∨ s = '-'.toUInt8 then ([s], rest) else ([], input)
        | [] => ([], [])
      let digits := input.takeWhile isDigit
      if digits = [] then .error "Unable to parse"
      else .ok (text ++ e :: sign ++ digits, input.dropWhile isDigit)
    else .ok (text, e :: input)
  | [] => .ok (text, [])

/-- A digit or a dot, what the first loop of `readNumber` takes. -/
def isDigitOrDot (i : UInt8) : Bool := isDigit i || i == '.'.toUInt8

/-- `JsonValue::readNumber(in, c)`, after its first character `c`: the digits and dots
`in.peek()` finds. With a dot, at most one, and an optional exponent, a `REAL`; without, an
`INTEGER`, refused when it has a leading zero. -/
def readNumber (c : UInt8) : Decoder UInt8 JsonValue := fun input =>
  let text := c :: input.takeWhile isDigitOrDot
  let input := input.dropWhile isDigitOrDot
  let dots := text.count '.'.toUInt8
  if dots > 0 then
    if dots > 1 then .error "Unable to parse"
    else match readExponent text input with
      | .ok (text, input) => .ok (real text, input)
      | .error message => .error message
  else if text.length > 1 ∧ (c = '0'.toUInt8 ∨ c = '-'.toUInt8 ∧ text[1]? = some '0'.toUInt8) then
    .error "Unable to parse"
  else .ok (integer (integerValue text), input)

/-- `JsonValue::readString(in)`, after the opening quote. -/
def readString : Decoder UInt8 JsonValue := do
  let value ← readStringToken
  pure (string value)

/-- What the reader fails with when the fuel bounding its recursion runs out. -/
def outOfFuel : String := "JsonValue nested past the reader's bound"

mutual

/-- `operator>>(in, jsonValue)`: the first character that is not white space picks the kind. -/
def readValue : ℕ → Decoder UInt8 JsonValue
  | 0 => Decoder.fail outOfFuel
  | fuel + 1 => do
    let c ← readNonWsChar
    if c = '['.toUInt8 then readArray fuel
    else if c = 't'.toUInt8 then readTrue
    else if c = 'f'.toUInt8 then readFalse
    else if c = '-'.toUInt8 ∨ ('0'.toUInt8 ≤ c ∧ c ≤ '9'.toUInt8) then readNumber c
    else if c = 'n'.toUInt8 then readNull
    else if c = '{'.toUInt8 then readObject fuel
    else if c = '"'.toUInt8 then readString
    else Decoder.fail "Unable to parse"

/-- `JsonValue::readArray(in)`, after the `[`: a `]`, or values separated by commas up to a `]`.
The character read to look for the `]` is put back. -/
def readArray : ℕ → Decoder UInt8 JsonValue
  | 0 => Decoder.fail outOfFuel
  | fuel + 1 => do
    let c ← readNonWsChar
    if c = ']'.toUInt8 then pure (array [])
    else do
      putback c
      let values ← readElements fuel
      pure (array values)

/-- The loop of `readArray`: a value, then a `]` to end or a comma to go on. -/
def readElements : ℕ → Decoder UInt8 (List JsonValue)
  | 0 => Decoder.fail outOfFuel
  | fuel + 1 => do
    let value ← readValue fuel
    let c ← readNonWsChar
    if c = ']'.toUInt8 then pure [value]
    else if c ≠ ','.toUInt8 then Decoder.fail "Unable to parse"
    else do
      let values ← readElements fuel
      pure (value :: values)

/-- `JsonValue::readObject(in)`, after the `{`: a `}`, or members `"name":value` separated by
commas up to a `}`. -/
def readObject : ℕ → Decoder UInt8 JsonValue
  | 0 => Decoder.fail outOfFuel
  | fuel + 1 => do
    let c ← readNonWsChar
    if c = '}'.toUInt8 then pure (object [])
    else do
      let members ← readMembers fuel c []
      pure (object members)

/-- The loop of `readObject` from the character `c` on, over the members read so far: each value
is read into `value[name]`, replacing what an earlier member of the name left there. -/
def readMembers : ℕ → UInt8 → List (List UInt8 × JsonValue) → Decoder UInt8 (List (List UInt8 × JsonValue))
  | 0, _, _ => Decoder.fail outOfFuel
  | fuel + 1, c, members => do
    if c ≠ '"'.toUInt8 then Decoder.fail "Unable to parse"
    else do
      let name ← readStringToken
      let c ← readNonWsChar
      if c ≠ ':'.toUInt8 then Decoder.fail "Unable to parse"
      else do
        let value ← readValue fuel
        let members := assignMember name value members
        let c ← readNonWsChar
        if c = '}'.toUInt8 then pure members
        else if c ≠ ','.toUInt8 then Decoder.fail "Unable to parse"
        else do
          let c ← readNonWsChar
          readMembers fuel c members

end

/-- `JsonValue::fromString(source)`: `stream >> jsonValue` over the text, what follows the value
left unread. -/
def fromString (source : List UInt8) : Except String JsonValue :=
  match readValue (2 * source.length) source with
  | .ok (value, _) => .ok value
  | .error message => .error message

end JsonValue

end Nox.Common
