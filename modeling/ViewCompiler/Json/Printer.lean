import ViewCompiler.Value
import ViewCompiler.Decimal.Notation
import ViewCompiler.Text.Quoted

/-! JSON texts in ASCII, on one line or one item a line. -/
namespace ViewCompiler.Json

/-- Each level is moved in by the number of spaces; without one all is on one line. -/
structure Style where
  indent : Option Nat := none
  comma : String := ", "
  colon : String := ": "

def Style.spaced (indent : Option Nat) : Style :=
  ⟨indent, if indent.isSome then "," else ", ", ": "⟩

def Style.dense : Style := ⟨none, ",", ":"⟩

def numberNames : Binary64.SpecialNames := ⟨"NaN", "Infinity"⟩

def unitEscape (n : Nat) : List Char := '\\' :: 'u' :: Text.hex 4 n

/-- Above the basic plane a character is written as two surrogates. -/
def escape (c : Char) : List Char :=
  let n := c.toNat
  if c = '"' ∨ c = '\\' then ['\\', c]
  else if c = '\n' then ['\\', 'n']
  else if c = '\r' then ['\\', 'r']
  else if c = '\t' then ['\\', 't']
  else if c = '\x08' then ['\\', 'b']
  else if c = '\x0c' then ['\\', 'f']
  else if 0x20 ≤ n ∧ n < 0x7F then [c]
  else if n < 0x10000 then unitEscape n
  else unitEscape (0xD800 + (n - 0x10000) / 0x400) ++ unitEscape (0xDC00 + (n - 0x10000) % 0x400)

def quote (s : String) : String := String.ofList ('"' :: s.toList.flatMap escape ++ ['"'])

/-- Items between brackets; the empty have nothing between them. -/
def Style.wrap (style : Style) (level : Nat) (first last : String) (items : List String) : String :=
  if items.isEmpty then first ++ last
  else
    let line (level : Nat) : String :=
      match style.indent with
      | some n => "\n" ++ String.ofList (List.replicate (level * n) ' ')
      | none => ""
    first ++ line (level + 1) ++ (style.comma ++ line (level + 1)).intercalate items
      ++ line level ++ last

mutual
def render (style : Style) (level : Nat) : Value → String
  | .null => "null"
  | .bool b => if b then "true" else "false"
  | .int n => toString n
  | .float x => x.render numberNames
  | .str s => quote s
  | .list xs => style.wrap level "[" "]" (renderItems style (level + 1) xs)
  | .dict fs => style.wrap level "\x7b" "\x7d" (renderFields style (level + 1) fs)

def renderItems (style : Style) (level : Nat) : List Value → List String
  | [] => []
  | v :: vs => render style level v :: renderItems style level vs

def renderFields (style : Style) (level : Nat) : List (String × Value) → List String
  | [] => []
  | (k, v) :: fs => (quote k ++ style.colon ++ render style level v) :: renderFields style level fs
end

def write (style : Style) (v : Value) : String := render style 0 v

end ViewCompiler.Json
