-- JSON documents and their compact text, with the size of that text in bytes of UTF-8.
import Mathlib

namespace bbcom.json

/-! ## Documents -/

/-- The shortest decimal text of a double: at most 24 characters, all of ASCII. -/
structure FloatText where
  chars : List Char
  short : chars.length ≤ 24
  ascii : ∀ c ∈ chars, c.utf8Size = 1

inductive Number
  | unsigned (value : UInt64)
  | negative (value : Int64)
  | float (text : FloatText)

inductive Json
  | null
  | bool (value : Bool)
  | number (value : Number)
  | string (text : String)
  | array (items : List Json)
  | object (fields : List (String × Json))

mutual
/-- How deep the arrays and objects of a document stand in each other. -/
def Json.depth : Json → Nat
  | .array items => depthItems items + 1
  | .object fields => depthFields fields + 1
  | _ => 0

def depthItems : List Json → Nat
  | [] => 0
  | item :: items => max item.depth (depthItems items)

def depthFields : List (String × Json) → Nat
  | [] => 0
  | (_, value) :: fields => max value.depth (depthFields fields)
end

/-! ## The text -/

def Number.print : Number → List Char
  | .unsigned n => Nat.toDigits 10 n.toNat
  | .negative n => '-' :: Nat.toDigits 10 n.toInt.natAbs
  | .float text => text.chars

def escapeChar (c : Char) : List Char :=
  if c = '"' then ['\\', '"']
  else if c = '\\' then ['\\', '\\']
  else if c.toNat < 0x20 then
    match c.toNat with
    | 8 => ['\\', 'b']
    | 9 => ['\\', 't']
    | 10 => ['\\', 'n']
    | 12 => ['\\', 'f']
    | 13 => ['\\', 'r']
    | n => ['\\', 'u', '0', '0', (n / 16).digitChar, (n % 16).digitChar]
  else [c]

def quoteChars (cs : List Char) : List Char := '"' :: cs.flatMap escapeChar ++ ['"']

def quote (text : String) : List Char := quoteChars text.toList

mutual
def Json.print : Json → List Char
  | .null => ['n', 'u', 'l', 'l']
  | .bool true => ['t', 'r', 'u', 'e']
  | .bool false => ['f', 'a', 'l', 's', 'e']
  | .number n => n.print
  | .string text => quote text
  | .array items => '[' :: printItems items ++ [']']
  | .object fields => '{' :: printFields fields ++ ['}']

def printItems : List Json → List Char
  | [] => []
  | [item] => item.print
  | item :: items => item.print ++ ',' :: printItems items

def printFields : List (String × Json) → List Char
  | [] => []
  | [(key, value)] => quote key ++ ':' :: value.print
  | (key, value) :: fields => quote key ++ ':' :: value.print ++ ',' :: printFields fields
end

/-! ## Its size -/

/-- The bytes of a text in UTF-8. -/
def bytes (text : List Char) : Nat := (text.map Char.utf8Size).sum

@[simp] theorem bytes_nil : bytes [] = 0 := rfl

@[simp] theorem bytes_cons (c : Char) (text : List Char) :
    bytes (c :: text) = c.utf8Size + bytes text := rfl

end bbcom.json
