import DocLint.Settings.Value

/-!
# Reading values of settings

Values and keys are read from the start of a text, and what follows them is given back. A reader gives
nothing if the text is malformed. Nested values are read with a bound on the number of steps, which the
length of the text makes large enough, and with a bound on their depth, which is part of the format: a list
takes two units of the room there is and a table in braces three.
-/

namespace DocLint.Settings

/-- Reads something from the start of a text. -/
abbrev Reader (α : Type) := Text → Option (α × Text)

/-- Control characters other than a tab, which may stand nowhere. -/
def isControl (c : Char) : Bool := c != '\t' && (c.toNat < 0x20 || c.toNat == 0x7F)

/-- What follows blanks. -/
def skipBlanks (text : Text) : Text := text.dropWhile Text.isBlank

/-- What follows a comment, if there is one. -/
def skipComment? (text : Text) : Option Text :=
  match text with
  | '#' :: rest =>
    if (rest.takeWhile (· != '\n')).any isControl then none
    else some (rest.dropWhile (· != '\n'))
  | text => some text

/-- What follows blanks, line ends and comments, as they may stand in a list. -/
def skipGaps? : (inComment : Bool) → Text → Option Text
  | _, [] => some []
  | true, c :: rest =>
    if c == '\n' then skipGaps? false rest
    else if isControl c then none
    else skipGaps? true rest
  | false, c :: rest =>
    if Text.isBlank c || c == '\n' then skipGaps? false rest
    else if c == '#' then skipGaps? true rest
    else some (c :: rest)

/-! ## Texts -/

/-- A code point written with `count` hexadecimal digits. -/
def hexChar (count : Nat) : Reader Char := fun text => do
  let digits ← (text.take count).mapM Text.hexValue?
  guard (digits.length = count)
  let code := digits.foldl (fun code digit => code * 16 + digit) 0
  guard (code < 0xD800 ∨ (0xE000 ≤ code ∧ code < 0x110000))
  return (Char.ofNat code, text.drop count)

/-- An escape, from behind its backslash on. In a text of several lines a backslash at the end of a
line stands for nothing, with all blanks and line ends after it. -/
def escape (multiline : Bool) : Reader Text
  | [] => none
  | c :: rest =>
    match c with
    | 'b' => some (['\x08'], rest)
    | 't' => some (['\t'], rest)
    | 'n' => some (['\n'], rest)
    | 'f' => some (['\x0c'], rest)
    | 'r' => some (['\r'], rest)
    | '\x22' => some (['\x22'], rest)
    | '\\' => some (['\\'], rest)
    | 'u' => (hexChar 4 rest).map fun (c, rest) => ([c], rest)
    | 'U' => (hexChar 8 rest).map fun (c, rest) => ([c], rest)
    | c =>
      if multiline && (Text.isBlank c || c == '\n') then
        match skipBlanks (c :: rest) with
        | [] => some ([], [])
        | '\n' :: rest => some ([], rest.dropWhile fun d => Text.isBlank d || d == '\n')
        | _ => none
      else none

/-- A text with escapes, from behind its opening on. -/
def escapedText (multiline : Bool) : (steps : Nat) → Reader Text
  | 0, _ => none
  | _, [] => none
  | steps + 1, c :: rest =>
    if c == '\x22' then
      if !multiline then some ([], rest)
      else match Text.after? "\"\"".toList rest with
        | some rest => some ([], rest)
        | none => (escapedText multiline steps rest).map fun (text, rest) => (c :: text, rest)
    else if c == '\\' then do
      let (escaped, rest) ← escape multiline rest
      let (text, rest) ← escapedText multiline steps rest
      return (escaped ++ text, rest)
    else if isControl c && !(multiline && c == '\n') then none
    else (escapedText multiline steps rest).map fun (text, rest) => (c :: text, rest)

/-- A text without escapes that `mark` ends, from behind its opening on. -/
def plainText (multiline : Bool) (mark : Text) : Reader Text := fun text => do
  let (content, rest) ← Text.cut? mark text
  guard (!content.any fun c => isControl c && !(multiline && c == '\n'))
  return (content, rest.drop mark.length)

/-- Up to two more quotes that a text of several lines may end with. -/
def trailingQuotes (quote : Char) (text rest : Text) : Text × Text :=
  let extra := (rest.take 2).takeWhile (· == quote)
  (text ++ extra, rest.drop extra.length)

/-- A text in any of its four forms. -/
def quotedText : Reader Text := fun text =>
  match text with
  | '\x22' :: rest =>
    match Text.after? "\"\"".toList rest with
    | some rest =>
      let rest := if rest.head? == some '\n' then rest.tail else rest
      (escapedText true (rest.length + 1) rest).map fun (text, rest) =>
        trailingQuotes '\x22' text rest
    | none => escapedText false (rest.length + 1) rest
  | '\x27' :: rest =>
    match Text.after? "''".toList rest with
    | some rest =>
      let rest := if rest.head? == some '\n' then rest.tail else rest
      (plainText true "'''".toList rest).map fun (text, rest) => trailingQuotes '\x27' text rest
    | none => plainText false "'".toList rest
  | _ => none

/-! ## Numbers -/

/-- Digits with single underscores between them, without the underscores. -/
def moreDigits (isDigit : Char → Bool) : Text → Text × Text
  | [] => ([], [])
  | '_' :: c :: rest =>
    if isDigit c then
      let (digits, rest) := moreDigits isDigit rest
      (c :: digits, rest)
    else ([], '_' :: c :: rest)
  | c :: rest =>
    if isDigit c then
      let (digits, rest) := moreDigits isDigit rest
      (c :: digits, rest)
    else ([], c :: rest)

/-- At least one digit. -/
def someDigits (isDigit : Char → Bool) : Reader Text
  | [] => none
  | c :: rest =>
    if isDigit c then
      let (digits, rest) := moreDigits isDigit rest
      some (c :: digits, rest)
    else none

/-- The number that digits stand for. -/
def numberOf (base : Nat) (digits : Text) : Nat :=
  digits.foldl (fun number c => number * base + (Text.hexValue? c).getD 0) 0

/-- A number with a base other than ten. -/
def basedNumber : Reader Setting
  | '0' :: mark :: rest => do
    let base ← if mark == 'x' then some 16 else if mark == 'o' then some 8
      else if mark == 'b' then some 2 else none
    let (digits, rest) ← someDigits (fun c => (Text.hexValue? c).any (· < base)) rest
    return (.integer (numberOf base digits), rest)
  | _ => none

/-- The sign of a number; plus if there is none. -/
def sign : Text → Bool × Text
  | '-' :: rest => (true, rest)
  | '+' :: rest => (false, rest)
  | text => (false, text)

/-- The digits before the point: a single zero, or no zero in front. -/
def wholePart : Reader Text
  | '0' :: rest => some (['0'], rest)
  | text => someDigits Char.isDigit text

/-- The digits behind the point, if there are any. -/
def fractionPart (text : Text) : Text × Text :=
  match text with
  | '.' :: rest => (someDigits Char.isDigit rest).getD ([], text)
  | _ => ([], text)

/-- The exponent, if there is one. -/
def exponentPart (text : Text) : Option Int × Text :=
  match text with
  | c :: rest =>
    if c == 'e' || c == 'E' then
      let (negative, digits) := sign rest
      match someDigits Char.isDigit digits with
      | some (digits, rest) =>
        let size : Int := numberOf 10 digits
        (some (if negative then -size else size), rest)
      | none => (none, text)
    else (none, text)
  | [] => (none, text)

/-- A number with base ten. -/
def plainNumber : Reader Setting := fun text => do
  let (negative, unsigned) := sign text
  let (whole, rest) ← wholePart unsigned
  let (fraction, rest) := fractionPart rest
  let (exponent, rest) := exponentPart rest
  if fraction.isEmpty && exponent.isNone then
    let number : Int := numberOf 10 whole
    return (.integer (if negative then -number else number), rest)
  else
    let number := Decimal.toFloat (numberOf 10 (whole ++ fraction))
      (exponent.getD 0 - fraction.length)
    return (.real (if negative then -number else number), rest)

/-- A number that is none or beyond all. -/
def specialNumber : Reader Setting := fun text => do
  let (negative, unsigned) := sign text
  if let some rest := Text.after? "inf".toList unsigned then
    return (.real (if negative then -(1.0 / 0.0) else 1.0 / 0.0), rest)
  let rest ← Text.after? "nan".toList unsigned
  return (.real (0.0 / 0.0), rest)

/-- A number in any of its forms. One with base ten is short. -/
def number (text : Text) : Except SettingFault (Setting × Text) :=
  match basedNumber text, plainNumber text, specialNumber text with
  | some found, _, _ => .ok found
  | none, some (.integer value, rest), _ =>
    if Setting.isShort value then .ok (.integer value, rest) else .error .longNumber
  | none, some found, _ => .ok found
  | none, none, some found => .ok found
  | none, none, none => .error .malformed

/-! ## Dates and times -/

/-- A number of exactly `count` digits. -/
def fixedDigits (count : Nat) : Reader Nat := fun text => do
  let digits := text.take count
  guard (digits.length = count ∧ digits.all Char.isDigit)
  return (numberOf 10 digits, text.drop count)

/-- Two digits for a number below a bound. -/
def boundedDigits (bound : Nat) : Reader (Fin bound) := fun text => do
  let (number, rest) ← fixedDigits 2 text
  if h : number < bound then return (⟨number, h⟩, rest) else none

/-- A day. -/
def day : Reader Day := fun text => do
  let (year, rest) ← fixedDigits 4 text
  let (month, rest) ← fixedDigits 2 (← Text.after? "-".toList rest)
  let (day, rest) ← fixedDigits 2 (← Text.after? "-".toList rest)
  if h : isDay year month day = true then return (⟨year, month, day, h⟩, rest) else none

/-- Millionths of a second, if there are any; further digits do not count. -/
def micros (text : Text) : Fin 1000000 × Text :=
  match text with
  | '.' :: rest =>
    let digits := rest.takeWhile Char.isDigit
    if digits.isEmpty then (0, text)
    else
      let six := (digits ++ List.replicate 6 '0').take 6
      (Fin.ofNat 1000000 (numberOf 10 six), rest.dropWhile Char.isDigit)
  | _ => (0, text)

/-- A time of the day. -/
def clock : Reader Clock := fun text => do
  let (hour, rest) ← boundedDigits 24 text
  let (minute, rest) ← boundedDigits 60 (← Text.after? ":".toList rest)
  let (second, rest) ← boundedDigits 60 (← Text.after? ":".toList rest)
  let (micros, rest) := micros rest
  return (⟨hour, minute, second, micros⟩, rest)

/-- Hours and minutes, as minutes. -/
def hoursAndMinutes : Reader Int := fun text => do
  let (hours, rest) ← boundedDigits 24 text
  let (minutes, rest) ← boundedDigits 60 (← Text.after? ":".toList rest)
  return ((60 * hours.val + minutes.val : Nat), rest)

/-- The distance from the universal time, in minutes. -/
def offset : Reader Int
  | [] => none
  | mark :: rest =>
    if mark == 'Z' || mark == 'z' then some (0, rest)
    else if mark == '+' then hoursAndMinutes rest
    else if mark == '-' then (hoursAndMinutes rest).map fun (minutes, rest) => (-minutes, rest)
    else none

/-- A time behind a day. -/
def clockBehind : Reader Clock
  | [] => none
  | mark :: rest => if mark == 'T' || mark == 't' || mark == ' ' then clock rest else none

/-- A date, a time, or both. -/
def moment : Reader Moment := fun text =>
  match day text with
  | none => (clock text).map fun (clock, rest) => (.clock clock, rest)
  | some (day, behind) =>
    match clockBehind behind with
    | none => some (.day day, behind)
    | some (clock, rest) =>
      match offset rest with
      | none => some (.both day clock none, rest)
      | some (minutes, rest) => some (.both day clock (some minutes), rest)

/-! ## Keys -/

/-- The characters of a key that is not quoted. -/
def isKeyChar (c : Char) : Bool := c.isAlphanum || c == '-' || c == '_'

/-- One part of a key. -/
def keyPart : Reader Text
  | [] => none
  | c :: rest =>
    if isKeyChar c then some ((c :: rest).takeWhile isKeyChar, (c :: rest).dropWhile isKeyChar)
    else if c == '\x27' then plainText false "'".toList rest
    else if c == '\x22' then escapedText false (rest.length + 1) rest
    else none

/-- The parts of a key, with dots between them. -/
def keyParts : (steps : Nat) → Reader (List Text)
  | 0, _ => none
  | steps + 1, text => do
    let (part, rest) ← keyPart text
    match skipBlanks rest with
    | '.' :: rest =>
      let (parts, rest) ← keyParts steps (skipBlanks rest)
      return (part :: parts, rest)
    | rest => return ([part], rest)

/-- A key. -/
def key : Reader (List Text) := fun text => keyParts (text.length + 1) text

/-! ## Tables -/

/-- A mark on a key: what may still be added at it and, if the mark is recursive, below it. -/
structure Mark where
  /-- The key. -/
  path : List Text
  /-- Nothing may be added any more; otherwise the table was opened and may not be opened again. -/
  frozen : Bool
  /-- Does the mark hold for all keys below? -/
  recursive : Bool

/-- Is a key marked? -/
def isMarked (marks : List Mark) (frozen : Bool) (path : List Text) : Bool :=
  !path.isEmpty && marks.any fun mark =>
    mark.frozen == frozen && (mark.path == path || (mark.recursive && mark.path.isPrefixOf path))

/-- The mark on a value that was written in one piece. -/
def marksOf (path : List Text) : Setting → List Mark
  | .list _ | .table _ => [⟨path, true, true⟩]
  | _ => []

/-- Replaces the value of a key, or adds it at the end. -/
def replace (key : Text) (value : Setting) : Settings → Settings
  | [] => [(key, value)]
  | (k, v) :: rest => if k == key then (k, value) :: rest else (k, v) :: replace key value rest

/-- Changes the table at a key, which is made if there is none. With `intoLists`, the table at a list is
its last item. -/
def alterAt (intoLists : Bool) (change : Settings → Option Settings) :
    (path : List Text) → Settings → Option Settings
  | [], settings => change settings
  | part :: path, settings =>
    match settings.get? part with
    | none => do
      let inner ← alterAt intoLists change path []
      return replace part (.table inner) settings
    | some (.table fields) => do
      let inner ← alterAt intoLists change path fields
      return replace part (.table inner) settings
    | some (.list items) =>
      match intoLists, items.getLast? with
      | true, some (.table fields) => do
        let inner ← alterAt intoLists change path fields
        return replace part (.list (items.dropLast ++ [.table inner])) settings
      | _, _ => none
    | some _ => none

/-- Adds a key that is not there yet. -/
def addNew (key : Text) (value : Setting) (settings : Settings) : Option Settings :=
  if settings.any (·.1 == key) then none else some (settings ++ [(key, value)])

/-! ## Values -/

/-- What was read, or the fault that it is malformed. -/
def orMalformed {α : Type} : Option α → Except SettingFault α
  | some found => .ok found
  | none => .error .malformed

/-- The room for values within one another. -/
def wholeRoom : Nat := 980

mutual

/-- A value. -/
def value : (steps room : Nat) → Text → Except SettingFault (Setting × Text)
  | 0, _, _ => .error .malformed
  | _, _, [] => .error .malformed
  | steps + 1, room, c :: rest =>
    let text := c :: rest
    if c == '\x22' || c == '\x27' then
      (orMalformed (quotedText text)).map fun (t, rest) => (.text t, rest)
    else if let some rest := Text.after? "true".toList text then .ok (.flag true, rest)
    else if let some rest := Text.after? "false".toList text then .ok (.flag false, rest)
    else if c == '[' then
      if room < 2 then .error .tooDeep
      else do
        let (items, rest) ← listItems steps (room - 2) (← orMalformed (skipGaps? false rest))
        return (.list items, rest)
    else if c == '\x7b' then
      if room < 3 then .error .tooDeep
      else match skipBlanks rest with
        | '\x7d' :: rest => .ok (.table [], rest)
        | rest => do
          let (fields, rest) ← tableFields steps (room - 3) [] [] rest
          return (.table fields, rest)
    else match moment text with
      | some (found, rest) => .ok (.moment found, rest)
      | none => number text

/-- The items of a list, from behind its opening and gaps on. -/
def listItems : (steps room : Nat) → Text → Except SettingFault (List Setting × Text)
  | 0, _, _ => .error .malformed
  | steps + 1, room, text =>
    match text with
    | ']' :: rest => .ok ([], rest)
    | text => do
      let (item, rest) ← value steps room text
      match ← orMalformed (skipGaps? false rest) with
      | ']' :: rest => return ([item], rest)
      | ',' :: rest =>
        let (items, rest) ← listItems steps room (← orMalformed (skipGaps? false rest))
        return (item :: items, rest)
      | _ => .error .malformed

/-- The fields of a table in braces, behind the fields `done`. -/
def tableFields : (steps room : Nat) → (marks : List Mark) → (done : Settings) → Text →
    Except SettingFault (Settings × Text)
  | 0, _, _, _, _ => .error .malformed
  | steps + 1, room, marks, done, text => do
    let (path, rest) ← orMalformed (key text)
    let rest ← orMalformed (Text.after? "=".toList rest)
    let (item, rest) ← value steps room (skipBlanks rest)
    if isMarked marks true path then .error .malformed
    let done ← orMalformed (alterAt false (addNew (path.getLast?.getD []) item) path.dropLast done)
    match skipBlanks rest with
    | '\x7d' :: rest => return (done, rest)
    | ',' :: rest => tableFields steps room (marks ++ marksOf path item) done (skipBlanks rest)
    | _ => .error .malformed

end

end DocLint.Settings
