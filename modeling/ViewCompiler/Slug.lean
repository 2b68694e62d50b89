import ViewCompiler.Text.Blank
import ViewCompiler.Text.LowerCase
import ViewCompiler.Value
import ViewCompiler.Fault

/-! Slugs: the words of a name in lower case with single hyphens between them. Words are separated by
blanks, underscores and hyphens, and by the boundaries of camel case. -/
namespace ViewCompiler.Slug

def isSeparator (c : Char) : Bool := Text.isBlank c || c == '_' || c == '-'

def isCapital (c : Char) : Bool := 'A' ≤ c && c ≤ 'Z'
def isSmall (c : Char) : Bool := 'a' ≤ c && c ≤ 'z'
def isDigit (c : Char) : Bool := '0' ≤ c && c ≤ '9'

/-- A word begins at `b`: after a small letter or digit, or as the last of a row of capitals in front
of a small letter. -/
def isBoundary (a b : Char) (after : List Char) : Bool :=
  isCapital b && (isSmall a || isDigit a || isCapital a && after.head?.any isSmall)

def hyphenate : List Char → List Char
  | [] => []
  | [c] => [c]
  | a :: b :: cs =>
    if isBoundary a b cs then a :: '-' :: hyphenate (b :: cs) else a :: hyphenate (b :: cs)

/-- The pieces between separators, the empty ones included. -/
def pieces : List Char → List (List Char)
  | [] => [[]]
  | c :: cs =>
    if isSeparator c then [] :: pieces cs
    else
      match pieces cs with
      | piece :: rest => (c :: piece) :: rest
      | [] => [[c]]

def words (cs : List Char) : List (List Char) := (pieces cs).filter (! ·.isEmpty)

def joined : List (List Char) → List Char
  | [] => []
  | [word] => word
  | word :: rest => word ++ '-' :: joined rest

def ofChars (cs : List Char) : List Char := Text.lower (joined (words (hyphenate cs)))

end ViewCompiler.Slug

namespace ViewCompiler

def slug (name : String) : String := String.ofList (Slug.ofChars name.toList)

/-- Only a text has a slug. -/
def Value.slug (v : Value) : Except Fault String :=
  match v with
  | .str s => .ok (ViewCompiler.slug s)
  | _ => .error .notText

end ViewCompiler
