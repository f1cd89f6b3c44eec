import JointEscrow.Bytes.Hex
import JointEscrow.Json.Value

/-!
# Compact JSON text

The one written form of a value: no blanks, members in their given order, texts with the shortest
escapes for the quote, the backslash and control characters, and every other character as it is.
-/

namespace JointEscrow.Json

def escapeChar (c : Char) : List Char :=
  if c = '"' then ['\\', '"']
  else if c = '\\' then ['\\', '\\']
  else if c = '\x08' then ['\\', 'b']
  else if c = '\x0c' then ['\\', 'f']
  else if c = '\n' then ['\\', 'n']
  else if c = '\r' then ['\\', 'r']
  else if c = '\t' then ['\\', 't']
  else if c.toNat < 0x20 then
    ['\\', 'u', '0', '0', Hex.digit (c.toNat / 16), Hex.digit (c.toNat % 16)]
  else [c]

def renderText (s : String) : List Char := '"' :: s.toList.flatMap escapeChar ++ ['"']

mutual
def render : Json → List Char
  | .null => ['n', 'u', 'l', 'l']
  | .bool true => ['t', 'r', 'u', 'e']
  | .bool false => ['f', 'a', 'l', 's', 'e']
  | .num n => Nat.toDigits 10 n.toNat
  | .negative n => '-' :: Nat.toDigits 10 n.toNat
  | .real x => x.text
  | .str s => renderText s
  | .arr [] => ['[', ']']
  | .arr (x :: r) => '[' :: x.render ++ renderItems r ++ [']']
  | .obj [] => ['\x7b', '\x7d']
  | .obj ((k, x) :: r) =>
    '\x7b' :: renderText k ++ ':' :: x.render ++ renderMembers r ++ ['\x7d']
  | .unreadable => ['n', 'u', 'l', 'l']

/-- Items that follow another one. -/
def renderItems : List Json → List Char
  | [] => []
  | x :: r => ',' :: x.render ++ renderItems r

/-- Members that follow another one. -/
def renderMembers : List (String × Json) → List Char
  | [] => []
  | (k, x) :: r => ',' :: renderText k ++ ':' :: x.render ++ renderMembers r
end

def compact (j : Json) : String := String.ofList j.render

end JointEscrow.Json
