import DocLint.Decimal
import DocLint.Settings.Moment
import DocLint.Text.Quoted

/-!
# Values of settings

A settings file gives values to keys. Only texts, flags and lists matter to the program, but a list may
hold anything, and each item then counts as its text: a text is its own, a flag is `True` or `False`,
and a list or table within a list is written with its texts in quotes and its dates as calls. Whole numbers
are read and written with at most 4300 decimal digits.
-/

namespace DocLint

/-- A value in a settings file. -/
inductive Setting where
  /-- A text. -/
  | text (text : Text)
  /-- True or false. -/
  | flag (value : Bool)
  /-- A whole number. -/
  | integer (value : Int)
  /-- A number with a point or an exponent. -/
  | real (value : Float)
  /-- A date, a time, or both. -/
  | moment (value : Moment)
  /-- A list of values. -/
  | list (items : List Setting)
  /-- Keys with their values, in order. -/
  | table (fields : List (Text × Setting))

/-- Why a settings file gives no settings, or a setting no texts. -/
inductive SettingFault where
  /-- The file does not follow the format. -/
  | malformed
  /-- A whole number has too many decimal digits. -/
  | longNumber
  /-- Lists or tables within one another go too deep. -/
  | tooDeep
  deriving DecidableEq

namespace Setting

/-- Has the number at most 4300 decimal digits? -/
def isShort (number : Int) : Bool := number.natAbs < Nat.pow 10 4300

mutual

/-- Are all whole numbers in the value short enough to be written? -/
def isWritable : Setting → Bool
  | integer value => isShort value
  | list items => areWritable items
  | table fields => areWritableFields fields
  | text _ | flag _ | real _ | moment _ => true

/-- Are all items writable? -/
def areWritable : List Setting → Bool
  | [] => true
  | item :: rest => item.isWritable && areWritable rest

/-- Are the values of all fields writable? -/
def areWritableFields : List (Text × Setting) → Bool
  | [] => true
  | (_, value) :: rest => value.isWritable && areWritableFields rest

end

mutual

/-- A value as it is written within a list. -/
def shown : Setting → Text
  | text t => Text.quoted t
  | flag value => (if value then "True" else "False").toList
  | integer value => Text.ofInt value
  | real value => Decimal.ofFloat value
  | moment value => value.shown
  | list items => "[".toList ++ Text.join ", ".toList (shownItems items) ++ "]".toList
  | table fields => "\x7b".toList ++ Text.join ", ".toList (shownFields fields) ++ "\x7d".toList

/-- The items of a list, each as it is written. -/
def shownItems : List Setting → List Text
  | [] => []
  | item :: rest => item.shown :: shownItems rest

/-- The fields of a table, each as it is written. -/
def shownFields : List (Text × Setting) → List Text
  | [] => []
  | (key, value) :: rest => (Text.quoted key ++ ": ".toList ++ value.shown) :: shownFields rest

end

/-- The text that a value counts as. -/
def toText : Setting → Text
  | text t => t
  | moment value => value.toText
  | value => value.shown

/-- The texts of the items of a list; a value that is no list has none. -/
def texts : Option Setting → Except SettingFault (List Text)
  | some (list items) =>
    if areWritable items then .ok (items.map toText) else .error .longNumber
  | _ => .ok []

end Setting

/-- Keys with their values, in order. -/
abbrev Settings := List (Text × Setting)

/-- The value of a key. -/
def Settings.get? (settings : Settings) (key : Text) : Option Setting :=
  (settings.find? (·.1 == key)).map (·.2)

end DocLint
