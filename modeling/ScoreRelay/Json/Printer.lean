import ScoreRelay.Json.Basic

/-! Writing JSON without blanks. -/
namespace ScoreRelay.Json

/-- A hexadecimal digit in small letters. -/
def hexDigit (n : Nat) : Char := Nat.digitChar n

/-- A character inside a string. Quotes, backslashes and control characters are escaped. -/
def escape (c : Char) : List Char :=
  if c = '"' then ['\\', '"']
  else if c = '\\' then ['\\', '\\']
  else if c = '\n' then ['\\', 'n']
  else if c = '\r' then ['\\', 'r']
  else if c = '\t' then ['\\', 't']
  else if c = '\x08' then ['\\', 'b']
  else if c = '\x0c' then ['\\', 'f']
  else if c.toNat < 32 then ['\\', 'u', '0', '0', hexDigit (c.toNat / 16), hexDigit (c.toNat % 16)]
  else [c]

def quoted (s : String) : List Char := '"' :: (s.toList.flatMap escape ++ ['"'])

mutual

/-- The text of a value. -/
def render : Json → List Char
  | .null => "null".toList
  | .bool b => if b then "true".toList else "false".toList
  | .int i => (Literal.ofInt i).render
  | .real l => l.render
  | .string s => quoted s
  | .array items => '[' :: (renderItems items ++ [']'])
  | .object members => '\x7b' :: (renderMembers members ++ ['\x7d'])

def renderItems : List Json → List Char
  | [] => []
  | [v] => render v
  | v :: w :: vs => render v ++ ',' :: renderItems (w :: vs)

def renderMembers : List (String × Json) → List Char
  | [] => []
  | [(k, v)] => quoted k ++ ':' :: render v
  | (k, v) :: m :: ms => quoted k ++ ':' :: (render v ++ ',' :: renderMembers (m :: ms))

end

/-- The text of a value as a string. -/
def text (v : Json) : String := String.ofList (render v)

end ScoreRelay.Json
