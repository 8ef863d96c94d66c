/-!
# Text

Source text is a list of code points, so that positions, columns and lengths all count code points
and every function on text is plain recursion on a list. Strings appear only where a fixed wording
enters or a finished output leaves.

The functions here cut text: at the first occurrence of a mark, at every separator, at the ends, and
into a bounded number of words. Each keeps the characters it does not cut away in their order.
-/

namespace DocLint

/-- A piece of text, as its code points in order. -/
abbrev Text := List Char

namespace Text

/-- A space or a tab. -/
def isBlank (c : Char) : Bool := c == ' ' || c == '\t'

/-- A carriage return or a line feed. -/
def isNewline (c : Char) : Bool := c == '\r' || c == '\n'

/-- White space between tokens: a blank or a newline, and nothing else. -/
def isGap (c : Char) : Bool := isBlank c || isNewline c

/-- White space in prose: every code point that separates words, the separators U+001C to U+001F and
the Unicode spaces included. -/
def isSpace (c : Char) : Bool :=
  let n := c.toNat
  (0x09 ≤ n && n ≤ 0x0D) || (0x1C ≤ n && n ≤ 0x20) || n == 0x85 || n == 0xA0 || n == 0x1680 ||
    (0x2000 ≤ n && n ≤ 0x200A) || n == 0x2028 || n == 0x2029 || n == 0x202F || n == 0x205F ||
    n == 0x3000

/-! ## Cutting -/

/-- What follows `lead` in a text that starts with it. -/
def after? (lead text : Text) : Option Text :=
  if lead.isPrefixOf text then some (text.drop lead.length) else none

theorem after?_eq_some {lead text rest : Text} : after? lead text = some rest ↔ lead ++ rest = text := by
  unfold after?
  constructor
  · intro h
    split at h
    · next hp =>
      obtain rfl : text.drop lead.length = rest := by simpa using h
      exact List.prefix_iff_eq_append.1 (List.isPrefixOf_iff_prefix.1 hp)
    · simp at h
  · rintro rfl
    simp [List.isPrefixOf_iff_prefix.2 (List.prefix_append lead rest)]

/-- A lead is not found in a text that starts with another character. -/
theorem after?_of_ne {d c : Char} (h : d ≠ c) (lead more : Text) : after? (d :: lead) (c :: more) = none := by
  unfold after?
  rw [List.isPrefixOf, beq_false_of_ne h]
  rfl

/-- The text before the first occurrence of the non-empty `mark`, and the text from that occurrence
on; `none` if `mark` does not occur. -/
def cut? (mark : Text) : Text → Option (Text × Text)
  | [] => none
  | c :: rest =>
    if mark.isPrefixOf (c :: rest) then some ([], c :: rest)
    else (cut? mark rest).map fun (before, after) => (c :: before, after)

theorem cut?_eq_some {mark text before after : Text} (h : cut? mark text = some (before, after)) :
    before ++ after = text ∧ mark <+: after := by
  induction text generalizing before after with
  | nil => simp [cut?] at h
  | cons c rest ih =>
    rw [cut?] at h
    split at h
    · next hp =>
      obtain ⟨rfl, rfl⟩ : [] = before ∧ c :: rest = after := by simpa using h
      exact ⟨rfl, List.isPrefixOf_iff_prefix.1 hp⟩
    · obtain ⟨⟨b, a⟩, hr, he⟩ := Option.map_eq_some_iff.1 h
      obtain ⟨rfl, rfl⟩ : c :: b = before ∧ a = after := by simpa using he
      exact ⟨by simp [(ih hr).1], (ih hr).2⟩

/-- Does `mark`, which is not empty, occur in the text? -/
def hasInfix (mark text : Text) : Bool := (cut? mark text).isSome

/-- The parts of a text between the characters that satisfy `p`; always one more than there are such
characters. -/
def splitWhere (p : Char → Bool) : Text → List Text
  | [] => [[]]
  | c :: rest =>
    if p c then [] :: splitWhere p rest
    else match splitWhere p rest with
      | [] => [[c]]
      | part :: parts => (c :: part) :: parts

/-- The longest part of a text without a final run of characters that satisfy `p`. -/
def dropEndWhile (p : Char → Bool) (text : Text) : Text := (text.reverse.dropWhile p).reverse

theorem dropEndWhile_isPrefix (p : Char → Bool) (text : Text) : dropEndWhile p text <+: text := by
  have h : text.reverse.dropWhile p <:+ text.reverse := List.dropWhile_suffix p
  simpa [dropEndWhile] using List.reverse_prefix.2 h

/-- A text without its leading and trailing white space. -/
def trim (text : Text) : Text := dropEndWhile isSpace (text.dropWhile isSpace)

/-- At most `cuts + 1` words of a text. Words are separated by white space; the last one takes all
that is left of the text, from its first character that is not white space on. -/
def words : (cuts : Nat) → Text → List Text
  | cuts, text =>
    match text.dropWhile isSpace, cuts with
    | [], _ => []
    | c :: rest, 0 => [c :: rest]
    | c :: rest, cuts + 1 =>
      (c :: rest).takeWhile (!isSpace ·) :: words cuts ((c :: rest).dropWhile (!isSpace ·))

/-- Texts joined with `mark` between any two neighbours. -/
def join (mark : Text) (parts : List Text) : Text := (parts.intersperse mark).flatten

/-- The decimal digits of a number, after a minus sign if it is negative. -/
def ofInt : Int → Text
  | .ofNat n => Nat.toDigits 10 n
  | .negSucc n => '-' :: Nat.toDigits 10 (n + 1)

/-- The value of a hexadecimal digit. -/
def hexValue? (c : Char) : Option Nat :=
  if '0' ≤ c && c ≤ '9' then some (c.toNat - '0'.toNat)
  else if 'a' ≤ c && c ≤ 'f' then some (c.toNat - 'a'.toNat + 10)
  else if 'A' ≤ c && c ≤ 'F' then some (c.toNat - 'A'.toNat + 10)
  else none

/-- `count` copies of a character; none at all if `count` is negative. -/
def fill (count : Int) (c : Char) : Text := List.replicate count.toNat c

/-- Order by code points, a proper prefix first. -/
def le : Text → Text → Bool
  | [], _ => true
  | _ :: _, [] => false
  | a :: as, b :: bs => a < b || (a == b && le as bs)

end Text

end DocLint
