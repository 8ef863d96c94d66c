import DocLint.Text.Quoted

/-!
# JSON text

Values with texts, whole numbers, lists and objects, and their text over several lines: two more blanks for
each level, and only printable ASCII characters. Any other character is written by its code, as two units
if it is above 0xFFFF.
-/

namespace DocLint

/-- A value. The fields of an object keep their order. -/
inductive Json where
  /-- A text. -/
  | text (text : Text)
  /-- A whole number. -/
  | number (value : Int)
  /-- A list. -/
  | list (items : List Json)
  /-- An object. -/
  | object (fields : List (Text × Json))

namespace Json

/-- The code of one unit. -/
def unit (code : Nat) : Text := '\\' :: 'u' :: Text.hex 4 code

/-- A character inside quotes. -/
def escape (c : Char) : Text :=
  if c = '\x22' then "\\\"".toList
  else if c = '\\' then "\\\\".toList
  else if c = '\n' then "\\n".toList
  else if c = '\r' then "\\r".toList
  else if c = '\t' then "\\t".toList
  else if c = '\x08' then "\\b".toList
  else if c = '\x0c' then "\\f".toList
  else if ' ' ≤ c ∧ c ≤ '~' then [c]
  else if c.toNat < 0x10000 then unit c.toNat
  else
    let offset := c.toNat - 0x10000
    unit (0xD800 + offset / 0x400) ++ unit (0xDC00 + offset % 0x400)

/-- A text in quotes. -/
def quote (text : Text) : Text := '\x22' :: text.flatMap escape ++ ['\x22']

/-- The end of a line, and the blanks that the next one starts with. -/
def line (depth : Nat) : Text := '\n' :: List.replicate (2 * depth) ' '

/-- Parts on lines of their own, between two brackets. -/
def block (opener closer : Char) (depth : Nat) : List Text → Text
  | [] => [opener, closer]
  | parts => opener :: line (depth + 1) ++ Text.join (',' :: line (depth + 1)) parts ++ line depth ++ [closer]

mutual

/-- The text of a value inside `depth` others. -/
def render (depth : Nat) : Json → Text
  | text t => quote t
  | number value => Text.ofInt value
  | list items => block '[' ']' depth (renderItems (depth + 1) items)
  | object fields => block '\x7b' '\x7d' depth (renderFields (depth + 1) fields)

/-- The texts of the items of a list. -/
def renderItems (depth : Nat) : List Json → List Text
  | [] => []
  | item :: rest => item.render depth :: renderItems depth rest

/-- The texts of the fields of an object. -/
def renderFields (depth : Nat) : List (Text × Json) → List Text
  | [] => []
  | (key, value) :: rest =>
    (quote key ++ ": ".toList ++ value.render depth) :: renderFields depth rest

end

end Json

end DocLint
