import DocLint.Text.Basic

/-!
# Wildcards

A pattern matches a whole text. A star stands for any text, a question mark for any character, a
bracket for one character of a set; all else stands for itself. Case counts, and no character is
special in the text. Matching goes through the pattern from its end and keeps, for every position of the
text, whether the rest of the pattern fits from there.

A set is written as characters and ranges, after an exclamation mark if it lists what is *not* meant. A
`]` right at its start is a member. A hyphen makes a range unless it stands first or last, or where a
range has just ended. A range that runs backwards is left out together with its ends before anything
else is read, so that it is what remains that may start with the exclamation mark. A bracket that is
not closed stands for itself.
-/

namespace DocLint

/-- A member of a set of characters. -/
inductive SetMember where
  /-- One character. -/
  | single (c : Char)
  /-- All characters between two, both included. -/
  | range (low high : Char)
  deriving DecidableEq

/-- Does the member stand for the character? -/
def SetMember.has : SetMember → Char → Bool
  | single c, d => c == d
  | range low high, d => low ≤ d && d ≤ high

/-- One element of a pattern. -/
inductive WildcardItem where
  /-- Any text. -/
  | star
  /-- Any character. -/
  | any
  /-- The character itself. -/
  | literal (c : Char)
  /-- A character in the set, or not in it. -/
  | oneOf (negated : Bool) (members : List SetMember)
  deriving DecidableEq

/-- Does an element other than a star stand for the character? -/
def WildcardItem.has : WildcardItem → Char → Bool
  | star, _ => false
  | any, _ => true
  | literal c, d => c == d
  | oneOf negated members, d => members.any (·.has d) != negated

/-- A pattern, read. -/
abbrev Wildcard := List WildcardItem

namespace Wildcard

/-! ## Reading sets -/

/-- How many characters at the start of a bracket cannot close it. -/
def leadLength (text : Text) : Nat :=
  let mark := if text.head? == some '!' then 1 else 0
  if (text.drop mark).head? == some ']' then mark + 1 else mark

/-- What stands in a bracket, from behind its opening on, and what follows the bracket. -/
def bracket? (text : Text) : Option (Text × Text) :=
  let inner := text.drop (leadLength text)
  match inner.dropWhile (· != ']') with
  | [] => none
  | _ :: rest => some (text.take (leadLength text) ++ inner.takeWhile (· != ']'), rest)

theorem length_dropWhile_le {p : Char → Bool} (text : Text) :
    (text.dropWhile p).length ≤ text.length :=
  (List.dropWhile_suffix p).length_le

theorem bracket?_shorter {text stuff rest : Text} (h : bracket? text = some (stuff, rest)) :
    rest.length < text.length := by
  simp only [bracket?] at h
  split at h
  · simp at h
  · next d after hd =>
    obtain ⟨-, rfl⟩ := Prod.mk.inj (Option.some.inj h)
    have h1 := length_dropWhile_le (p := (· != ']')) (text.drop (leadLength text))
    rw [hd] at h1
    simp only [List.length_cons, List.length_drop] at h1
    omega

/-- The stretches of a set between the hyphens that make ranges. The next such hyphen is looked for
behind the first `skip` characters; behind it, one character ends the range and one may follow. -/
def stretches (skip : Nat) (stuff : Text) : List Text :=
  match _h : (stuff.drop skip).dropWhile (· != '-') with
  | [] => [stuff]
  | _ :: after =>
    (stuff.take skip ++ (stuff.drop skip).takeWhile (· != '-')) :: stretches 2 after
termination_by stuff.length
decreasing_by
  have := congrArg List.length _h
  have := length_dropWhile_le (p := (· != '-')) (stuff.drop skip)
  simp only [List.length_cons, List.length_drop] at *
  omega

/-- A hyphen at the very end makes no range. -/
def foldLastHyphen : List Text → List Text
  | [] => []
  | [stretch] => [stretch]
  | [stretch, []] => [stretch ++ ['-']]
  | stretch :: rest => stretch :: foldLastHyphen rest

/-- Leaves out the ranges that run backwards, from the last one to the first. -/
def dropBackwards : List Text → List Text
  | [] => []
  | stretch :: rest =>
    match dropBackwards rest with
    | [] => [stretch]
    | next :: more =>
      match stretch.getLast?, next.head? with
      | some low, some high =>
        if high < low then (stretch.dropLast ++ next.tail) :: more else stretch :: next :: more
      | _, _ => stretch :: next :: more

/-- The members of a set, where `none` is a hyphen that makes a range. -/
def members : List (Option Char) → List SetMember
  | [] => []
  | low :: none :: high :: rest => .range (low.getD '-') (high.getD '-') :: members rest
  | c :: rest => .single (c.getD '-') :: members rest

/-- The element that a bracket stands for. -/
def setItem (stuff : Text) : WildcardItem :=
  let skip := if stuff.head? == some '!' then 2 else 1
  let kept := dropBackwards (foldLastHyphen (stretches skip stuff))
  match ((kept.map (·.map some)).intersperse [none]).flatten with
  | some '!' :: rest => if rest.isEmpty then .any else .oneOf true (members rest)
  | marks => .oneOf false (members marks)

/-! ## Reading and matching patterns -/

/-- Reads a pattern. -/
def ofText : Text → Wildcard
  | [] => []
  | c :: rest =>
    match c with
    | '*' => .star :: ofText rest
    | '?' => .any :: ofText rest
    | '[' =>
      match _h : bracket? rest with
      | none => .literal '[' :: ofText rest
      | some (stuff, after) => setItem stuff :: ofText after
    | c => .literal c :: ofText rest
termination_by text => text.length
decreasing_by
  all_goals try simp only [List.length_cons]; omega
  have := bracket?_shorter _h
  simp only [List.length_cons]
  omega

/-- For each position, whether one of the positions from there on is marked. -/
def orLater : List Bool → List Bool
  | [] => []
  | mark :: marks =>
    let later := orLater marks
    (mark || later.headD false) :: later

/-- For each position of a text, its end included, whether the pattern fits what is left of the text from
there on. -/
def fitsFrom : Wildcard → Text → List Bool
  | [], text => text.map (fun _ => false) ++ [true]
  | .star :: pattern, text => orLater (fitsFrom pattern text)
  | item :: pattern, text =>
    List.zipWith (fun c next => item.has c && next) text (fitsFrom pattern text).tail ++ [false]

/-- Does the whole text match the pattern? -/
def fits (pattern : Wildcard) (text : Text) : Bool := (fitsFrom pattern text).headD false

/-! ## What it is to match -/

theorem length_orLater (marks : List Bool) : (orLater marks).length = marks.length := by
  induction marks with
  | nil => rfl
  | cons mark marks ih => simp [orLater, ih]

theorem fitsFrom_item {item : WildcardItem} (hi : item ≠ .star) (pattern : Wildcard) (text : Text) :
    fitsFrom (item :: pattern) text =
      List.zipWith (fun c next => item.has c && next) text (fitsFrom pattern text).tail ++ [false] := by
  cases item with
  | star => exact absurd rfl hi
  | any | literal | oneOf => rfl

theorem length_fitsFrom (pattern : Wildcard) (text : Text) :
    (fitsFrom pattern text).length = text.length + 1 := by
  induction pattern with
  | nil => simp [fitsFrom]
  | cons item pattern ih =>
    by_cases hi : item = .star
    · rw [hi, fitsFrom, length_orLater, ih]
    · simp [fitsFrom_item hi, ih]

/-- The marks of a shorter text are the later marks of a longer one. -/
theorem tail_fitsFrom (pattern : Wildcard) (c : Char) (text : Text) :
    (fitsFrom pattern (c :: text)).tail = fitsFrom pattern text := by
  induction pattern with
  | nil => simp [fitsFrom]
  | cons item pattern ih =>
    obtain ⟨mark, marks, h⟩ : ∃ mark marks, fitsFrom pattern (c :: text) = mark :: marks :=
      List.exists_cons_of_length_eq_add_one (length_fitsFrom pattern (c :: text))
    rw [h, List.tail_cons] at ih
    by_cases hi : item = .star
    · rw [hi, fitsFrom, fitsFrom, h, orLater, List.tail_cons, ih]
    · obtain ⟨mark', marks', h'⟩ : ∃ mark marks, fitsFrom pattern text = mark :: marks :=
        List.exists_cons_of_length_eq_add_one (length_fitsFrom pattern text)
      rw [fitsFrom_item hi, fitsFrom_item hi, h, ih, h']
      simp

theorem fitsFrom_cons (pattern : Wildcard) (c : Char) (text : Text) :
    fitsFrom pattern (c :: text) = fits pattern (c :: text) :: fitsFrom pattern text := by
  obtain ⟨mark, marks, h⟩ : ∃ mark marks, fitsFrom pattern (c :: text) = mark :: marks :=
    List.exists_cons_of_length_eq_add_one (length_fitsFrom pattern (c :: text))
  have ht := tail_fitsFrom pattern c text
  rw [h, List.tail_cons] at ht
  rw [fits, h, ht, List.headD_cons]

theorem fits_nil (text : Text) : fits [] text = text.isEmpty := by
  cases text with
  | nil => rfl
  | cons c text => rfl

theorem fits_star_nil (pattern : Wildcard) : fits (.star :: pattern) [] = fits pattern [] := by
  obtain ⟨mark, h⟩ := List.length_eq_one_iff.1 (length_fitsFrom pattern [])
  simp [fits, fitsFrom, h, orLater]

/-- A star stands for nothing, or for the next character and whatever it stands for after that. -/
theorem fits_star_cons (pattern : Wildcard) (c : Char) (text : Text) :
    fits (.star :: pattern) (c :: text) =
      (fits pattern (c :: text) || fits (.star :: pattern) text) := by
  rw [fits, fitsFrom, fitsFrom_cons, orLater, List.headD_cons]
  rfl

theorem fits_item_nil {item : WildcardItem} (hi : item ≠ .star) (pattern : Wildcard) :
    fits (item :: pattern) [] = false := by
  rw [fits, fitsFrom_item hi]
  rfl

/-- Any other element stands for one character. -/
theorem fits_item_cons {item : WildcardItem} (hi : item ≠ .star) (pattern : Wildcard) (c : Char)
    (text : Text) : fits (item :: pattern) (c :: text) = (item.has c && fits pattern text) := by
  obtain ⟨mark, marks, h⟩ : ∃ mark marks, fitsFrom pattern text = mark :: marks :=
    List.exists_cons_of_length_eq_add_one (length_fitsFrom pattern text)
  have hf : fits pattern text = mark := by rw [fits, h, List.headD_cons]
  rw [fits, fitsFrom_item hi, tail_fitsFrom, h, hf]
  rfl

end Wildcard

end DocLint
