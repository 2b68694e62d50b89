import ViewCompiler.Fault

/-! The reader of JSON texts. It keeps the order of fields and the difference between integers and
numbers with a fraction or an exponent, and takes the literals `NaN` and `Infinity` beside the
standard ones. The number of characters bounds the depth of every recursion. -/
namespace ViewCompiler.Json

/-- What was read, and the characters after it. -/
abbrev Reading (α : Type) := α × List Char

def isSpace (c : Char) : Bool := c == ' ' || c == '\t' || c == '\n' || c == '\r'

def skipSpace (cs : List Char) : List Char := cs.dropWhile isSpace

def ofDigits (digits : List Char) : Nat := digits.foldl (fun n d => 10 * n + (d.toNat - 48)) 0

/-- Longer integers are refused. -/
def longestInteger : Nat := 4300

def takeDigits (cs : List Char) : List Char × List Char :=
  (cs.takeWhile Char.isDigit, cs.dropWhile Char.isDigit)

/-- No zero stands in front of another digit. -/
def takeWhole : List Char → List Char × List Char
  | '0' :: cs => (['0'], cs)
  | cs => takeDigits cs

/-- A point without digits after it is not part of the number. -/
def takeFraction : List Char → List Char × List Char
  | '.' :: cs =>
    let (digits, rest) := takeDigits cs
    if digits.isEmpty then ([], '.' :: cs) else (digits, rest)
  | cs => ([], cs)

def takeSign : List Char → Bool × List Char
  | '-' :: cs => (true, cs)
  | '+' :: cs => (false, cs)
  | cs => (false, cs)

def takeExponent (cs : List Char) : Option Int × List Char :=
  match cs with
  | [] => (none, [])
  | e :: after =>
    if e = 'e' ∨ e = 'E' then
      let (negative, unsigned) := takeSign after
      let (digits, rest) := takeDigits unsigned
      let n : Int := ofDigits digits
      if digits.isEmpty then (none, cs) else (some (if negative then -n else n), rest)
    else (none, cs)

def readNumber (negative : Bool) (cs : List Char) : Except Fault (Reading Value) :=
  let (whole, cs) := takeWhole cs
  let (fraction, cs) := takeFraction cs
  let (exponent, cs) := takeExponent cs
  if whole.isEmpty then .error .badJson
  else if fraction.isEmpty && exponent.isNone then
    let n : Int := ofDigits whole
    if whole.length > longestInteger then .error .hugeInteger
    else .ok (.int (if negative then -n else n), cs)
  else
    let x := Binary64.ofDecimal negative (ofDigits (whole ++ fraction))
      (exponent.getD 0 - fraction.length)
    .ok (.float x, cs)

def hexDigit? (c : Char) : Option Nat :=
  if '0' ≤ c ∧ c ≤ '9' then some (c.toNat - '0'.toNat)
  else if 'a' ≤ c ∧ c ≤ 'f' then some (c.toNat - 'a'.toNat + 10)
  else if 'A' ≤ c ∧ c ≤ 'F' then some (c.toNat - 'A'.toNat + 10)
  else none

def readHex : List Char → Except Fault (Reading Nat)
  | a :: b :: c :: d :: cs =>
    match hexDigit? a, hexDigit? b, hexDigit? c, hexDigit? d with
    | some a, some b, some c, some d => .ok (((a * 16 + b) * 16 + c) * 16 + d, cs)
    | _, _, _, _ => .error .badJson
  | _ => .error .badJson

def isHighSurrogate (n : Nat) : Bool := 0xD800 ≤ n && n < 0xDC00
def isLowSurrogate (n : Nat) : Bool := 0xDC00 ≤ n && n < 0xE000

/-- A surrogate without its partner is no character and is replaced. -/
def charOf (n : Nat) : Char :=
  if isHighSurrogate n || isLowSurrogate n then '\ufffd' else Char.ofNat n

/-- A character given by number; two surrogates in a row give one. -/
def readNumbered (cs : List Char) : Except Fault (Reading Char) := do
  let (high, cs) ← readHex cs
  match isHighSurrogate high, cs with
  | true, '\\' :: 'u' :: after =>
    let (low, rest) ← readHex after
    if isLowSurrogate low then
      return (Char.ofNat (0x10000 + (high - 0xD800) * 0x400 + (low - 0xDC00)), rest)
    else return (charOf high, cs)
  | _, _ => return (charOf high, cs)

def readEscape : List Char → Except Fault (Reading Char)
  | [] => .error .badJson
  | c :: cs =>
    match c with
    | '"' => .ok ('"', cs)
    | '\\' => .ok ('\\', cs)
    | '/' => .ok ('/', cs)
    | 'b' => .ok ('\x08', cs)
    | 'f' => .ok ('\x0c', cs)
    | 'n' => .ok ('\n', cs)
    | 'r' => .ok ('\r', cs)
    | 't' => .ok ('\t', cs)
    | 'u' => readNumbered cs
    | _ => .error .badJson

/-- The characters up to the closing quote. Control characters must be escaped. -/
def readChars : Nat → List Char → Except Fault (Reading (List Char))
  | 0, _ => .error .badJson
  | _, [] => .error .badJson
  | depth + 1, c :: cs =>
    if c = '"' then .ok ([], cs)
    else if c.toNat < 0x20 then .error .badJson
    else do
      let (c, cs) ← if c = '\\' then readEscape cs else pure (c, cs)
      let (rest, cs) ← readChars depth cs
      return (c :: rest, cs)

def readString (depth : Nat) (cs : List Char) : Except Fault (Reading String) := do
  let (chars, cs) ← readChars depth cs
  return (String.ofList chars, cs)

def expect (c : Char) (cs : List Char) : Except Fault (List Char) :=
  match skipSpace cs with
  | d :: cs => if c = d then .ok cs else .error .badJson
  | [] => .error .badJson

mutual
def readValue : Nat → List Char → Except Fault (Reading Value)
  | 0, _ => .error .badJson
  | depth + 1, cs =>
    match cs with
    | '"' :: cs => do
      let (s, cs) ← readString depth cs
      return (.str s, cs)
    | '[' :: cs =>
      match skipSpace cs with
      | ']' :: cs => .ok (.list [], cs)
      | cs => do
        let (items, cs) ← readItems depth cs
        return (.list items, cs)
    | '\x7b' :: cs =>
      match skipSpace cs with
      | '\x7d' :: cs => .ok (.dict [], cs)
      | cs => readFields depth [] cs
    | 'n' :: 'u' :: 'l' :: 'l' :: cs => .ok (.null, cs)
    | 't' :: 'r' :: 'u' :: 'e' :: cs => .ok (.bool true, cs)
    | 'f' :: 'a' :: 'l' :: 's' :: 'e' :: cs => .ok (.bool false, cs)
    | 'N' :: 'a' :: 'N' :: cs => .ok (.float .nan, cs)
    | 'I' :: 'n' :: 'f' :: 'i' :: 'n' :: 'i' :: 't' :: 'y' :: cs => .ok (.float (.infinite false), cs)
    | '-' :: 'I' :: 'n' :: 'f' :: 'i' :: 'n' :: 'i' :: 't' :: 'y' :: cs =>
      .ok (.float (.infinite true), cs)
    | '-' :: cs => readNumber true cs
    | cs => readNumber false cs

/-- The items of a list that has one at least. -/
def readItems : Nat → List Char → Except Fault (Reading (List Value))
  | 0, _ => .error .badJson
  | depth + 1, cs => do
    let (item, cs) ← readValue depth cs
    match skipSpace cs with
    | ',' :: cs =>
      let (items, cs) ← readItems depth (skipSpace cs)
      return (item :: items, cs)
    | ']' :: cs => return ([item], cs)
    | _ => throw .badJson

/-- The fields of a dictionary that has one at least, written over those read before. -/
def readFields : Nat → Fields → List Char → Except Fault (Reading Value)
  | 0, _, _ => .error .badJson
  | depth + 1, fields, cs => do
    let cs ← expect '"' cs
    let (key, cs) ← readString depth cs
    let cs ← expect ':' cs
    let (value, cs) ← readValue depth (skipSpace cs)
    let fields := fields.put key value
    match skipSpace cs with
    | ',' :: cs => readFields depth fields cs
    | '\x7d' :: cs => return (.dict fields, cs)
    | _ => throw .badJson
end

def read (text : String) : Except Fault Value := do
  let cs := text.toList
  let (value, rest) ← readValue (2 * cs.length + 2) (skipSpace cs)
  if (skipSpace rest).isEmpty then return value else throw .badJson

end ViewCompiler.Json
