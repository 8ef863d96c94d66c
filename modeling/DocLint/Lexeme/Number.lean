import DocLint.Lexeme.Basic
import DocLint.Text.Alphanumeric
import DocLint.Text.Digit

/-!
# Numbers

A number runs over letters, numerals and underscores, one point before a digit, and a sign right
after the `e` of an exponent. In a hexadecimal number `e` is a digit. No check is made that what is
read makes sense as a number.
-/

namespace DocLint.Lexeme

/-- Does the text start a hexadecimal number? -/
def isHex : Text → Bool
  | '0' :: x :: _ => x == 'x' || x == 'X'
  | _ => false

/-- Does `c`, before `rest`, continue a number of which `done` is read? -/
def continuesNumber (done : Text) (c : Char) (rest : Text) : Bool :=
  Text.isAlphanumeric c || c == '_' ||
    (c == '.' && rest.head?.any Text.isDigit && !done.contains '.') ||
    ((c == '+' || c == '-') && done.getLast?.any (fun l => l == 'e' || l == 'E') && !isHex done)

/-- The number of which `done` is read, and what follows it. -/
def numberFrom : (done : Text) → Text → Text × Text
  | done, [] => (done, [])
  | done, c :: rest =>
    if continuesNumber done c rest then numberFrom (done ++ [c]) rest else (done, c :: rest)

/-- Does a number start here? -/
def startsNumber : Text → Bool
  | [] => false
  | c :: rest => Text.isDigit c || (c == '.' && rest.head?.any Text.isDigit)

/-- Has the number a point or an exponent? -/
def isReal (number : Text) : Bool :=
  number.contains '.' || (!isHex number && (number.contains 'e' || number.contains 'E'))

theorem numberFrom_append (done text : Text) :
    (numberFrom done text).1 ++ (numberFrom done text).2 = done ++ text := by
  induction text generalizing done with
  | nil => simp [numberFrom]
  | cons c rest ih =>
    rw [numberFrom]
    split
    · rw [ih]; simp
    · rfl

theorem numberFrom_length (done text : Text) : done.length ≤ (numberFrom done text).1.length := by
  induction text generalizing done with
  | nil => simp [numberFrom]
  | cons c rest ih =>
    rw [numberFrom]
    split
    · exact Nat.le_trans (by simp) (ih _)
    · exact Nat.le_refl _

end DocLint.Lexeme
