/-!
JSON values and their indented text.

An array or object that holds something is spread over lines, two blanks to a level; an empty one is
written as a pair of brackets.
-/

namespace Bringup

set_option autoImplicit false

/-- A JSON value; the members of an object keep their order. -/
inductive Json where
  | null
  | bool (value : Bool)
  | int (value : Int)
  | str (value : String)
  | arr (items : List Json)
  | obj (members : List (String × Json))
deriving Repr

namespace Json

/-- The two hexadecimal digits of a control character. -/
def hexPair (n : Nat) : List Char := [Nat.digitChar (n / 16), Nat.digitChar (n % 16)]

/-- A character inside a string. -/
def escape (c : Char) : List Char :=
  if c == '"' then ['\\', '"']
  else if c == '\\' then ['\\', '\\']
  else if c.toNat = 0x08 then ['\\', 'b']
  else if c.toNat = 0x09 then ['\\', 't']
  else if c.toNat = 0x0A then ['\\', 'n']
  else if c.toNat = 0x0C then ['\\', 'f']
  else if c.toNat = 0x0D then ['\\', 'r']
  else if c.toNat < 0x20 then ['\\', 'u', '0', '0'] ++ hexPair c.toNat
  else [c]

/-- A string in its quotes. -/
def quoted (s : String) : List Char := '"' :: (s.toList.flatMap escape ++ ['"'])

/-- A line break and the indentation of a level. -/
def newline (level : Nat) : List Char := '\n' :: List.replicate (2 * level) ' '

mutual

/-- The text of a value that stands at a level of indentation. -/
def render (level : Nat) : Json → List Char
  | null => ['n', 'u', 'l', 'l']
  | bool true => ['t', 'r', 'u', 'e']
  | bool false => ['f', 'a', 'l', 's', 'e']
  | int value => (toString value).toList
  | str value => quoted value
  | arr [] => ['[', ']']
  | arr (item :: items) =>
    '[' :: (newline (level + 1) ++ render (level + 1) item ++ renderItems (level + 1) items
      ++ newline level ++ [']'])
  | obj [] => ['{', '}']
  | obj ((name, value) :: members) =>
    '{' :: (newline (level + 1) ++ quoted name ++ [':', ' '] ++ render (level + 1) value
      ++ renderMembers (level + 1) members ++ newline level ++ ['}'])

/-- The text of the items after the first. -/
def renderItems (level : Nat) : List Json → List Char
  | [] => []
  | item :: items => ',' :: (newline level ++ render level item ++ renderItems level items)

/-- The text of the members after the first. -/
def renderMembers (level : Nat) : List (String × Json) → List Char
  | [] => []
  | (name, value) :: members =>
    ',' :: (newline level ++ quoted name ++ [':', ' '] ++ render level value
      ++ renderMembers level members)

end

/-- The indented text of a value. -/
def pretty (value : Json) : String := String.ofList (render 0 value)

/-- A value that may be missing, as `null`. -/
def ofOption {α : Type} (f : α → Json) : Option α → Json
  | none => null
  | some a => f a

/-- A member that is left out when its value is missing. -/
def optional {α : Type} (name : String) (f : α → Json) : Option α → List (String × Json)
  | none => []
  | some a => [(name, f a)]

end Json

end Bringup
