import DocLint.Proofs.Heredocs
import DocLint.Text.Quoted
import Mathlib.Algebra.GroupWithZero.Nat

/-!
# Reading numbers and quoted text back

A number is all digits that a text starts with, behind a minus sign if there is one (`readInt?_ofInt`). A quoted text
tells where it ends and what it stands for: whatever follows it, the reader here takes off the quotes and undoes the
escapes (`unquote?_quoted`). Three facts about each escaped character carry this. It does not start with the quote, so
the closing quote is not taken for a part of the text; it is read back as one character; and it holds no line feed, so
that quoted text stays on its line.
-/

namespace DocLint.Text

/-! ## Numbers -/

/-- Reads all digits that a text starts with. -/
def readNat? (text : Text) : Option (Nat × Text) :=
  if (text.takeWhile Char.isDigit).isEmpty then none
  else some (Nat.ofDigitChars 10 (text.takeWhile Char.isDigit) 0, text.dropWhile Char.isDigit)

/-- Reads a number, which may have a minus sign. -/
def readInt? : Text → Option (Int × Text)
  | '-' :: text => (readNat? text).map fun (n, rest) => (-(n : Int), rest)
  | text => (readNat? text).map fun (n, rest) => ((n : Int), rest)

theorem isDigit_of_mem_digits {n : Nat} {c : Char} (h : c ∈ Nat.toDigits 10 n) : c.isDigit = true :=
  Nat.isDigit_of_mem_toDigits (by decide) (by decide) h

section

variable {rest : Text} (hrest : ∀ c, rest.head? = some c → c.isDigit = false)
include hrest

theorem readNat?_toDigits (n : Nat) : readNat? (Nat.toDigits 10 n ++ rest) = some (n, rest) := by
  have hrun : RunOf Char.isDigit (Nat.toDigits 10 n) rest := ⟨fun c hc => isDigit_of_mem_digits hc, hrest⟩
  have hne : (Nat.toDigits 10 n).isEmpty = false := by simp [Nat.toDigits_ne_nil]
  rw [readNat?, hrun.takeWhile_append, hrun.dropWhile_append, hne, if_neg Bool.false_ne_true,
    Nat.ofDigitChars_ten_toDigits]

theorem readInt?_ofInt (n : Int) : readInt? (ofInt n ++ rest) = some (n, rest) := by
  cases n with
  | ofNat n =>
    have hread := readNat?_toDigits hrest n
    show readInt? (Nat.toDigits 10 n ++ rest) = _
    unfold readInt?
    split
    · next text heq =>
      -- a digit is no minus sign
      obtain ⟨digit, digits, hdigits⟩ := List.exists_cons_of_ne_nil (Nat.toDigits_ne_nil : Nat.toDigits 10 n ≠ [])
      have hdigit := isDigit_of_mem_digits (hdigits ▸ List.mem_cons_self : digit ∈ Nat.toDigits 10 n)
      rw [hdigits] at heq
      cases heq
      cases hdigit
    · rw [hread]
      rfl
  | negSucc n =>
    show (readNat? (Nat.toDigits 10 (n + 1) ++ rest)).map _ = _
    rw [readNat?_toDigits hrest]
    rfl

end

theorem mem_ofInt {n : Int} {c : Char} (h : c ∈ ofInt n) : c = '-' ∨ c.isDigit = true := by
  cases n with
  | ofNat n => exact Or.inr (isDigit_of_mem_digits h)
  | negSucc n =>
    rcases List.mem_cons.1 h with h | h
    · exact Or.inl h
    · exact Or.inr (isDigit_of_mem_digits h)

theorem ofInt_ne_nil (n : Int) : ofInt n ≠ [] := by
  cases n with
  | ofNat n => exact Nat.toDigits_ne_nil
  | negSucc n => exact List.cons_ne_nil _ _

/-- No other mark is taken for a part of a number. -/
theorem ne_of_mem_ofInt {n : Int} {c mark : Char} (h : c ∈ ofInt n) (hminus : mark ≠ '-')
    (hdigit : mark.isDigit = false) : c ≠ mark := by
  rintro rfl
  rcases mem_ofInt h with h | h
  · exact hminus h
  · rw [h] at hdigit
    cases hdigit

/-! ## Characters by their code -/

/-- Reads a character from `width` hexadecimal digits, where `code` is the value of the digits before them. -/
def unhex? : (width code : Nat) → Text → Option (Char × Text)
  | 0, code, rest => some (Char.ofNat code, rest)
  | _ + 1, _, [] => none
  | width + 1, code, c :: rest => (hexValue? c).bind fun digit => unhex? width (16 * code + digit) rest

theorem hexValue?_digitChar : ∀ digit < 16, hexValue? (Nat.digitChar digit) = some digit := by decide

/-- Digits are read from the left and written from the right, so the reader is followed through them with `more` digits
still to come. -/
theorem unhex?_hex_append (width more code n : Nat) (rest : Text) :
    unhex? (width + more) code (hex width n ++ rest) =
      unhex? more (16 ^ width * code + n % 16 ^ width) rest := by
  induction width generalizing more n rest with
  | zero => simp [hex, Nat.mod_one]
  | succ width ih =>
    have hdigit := hexValue?_digitChar (n % 16) (Nat.mod_lt n (by decide))
    have hcode : 16 * (16 ^ width * code + n / 16 % 16 ^ width) + n % 16 =
        16 ^ (width + 1) * code + n % 16 ^ (width + 1) := by
      rw [Nat.pow_succ', Nat.mod_mul, Nat.mul_add, Nat.mul_assoc]
      omega
    rw [hex, List.append_assoc, Nat.add_assoc, Nat.add_comm 1 more, ih (more + 1)]
    show (hexValue? (Nat.digitChar (n % 16))).bind _ = _
    rw [hdigit, Option.bind_some, hcode]
    rfl

theorem unhex?_hex {c : Char} {width : Nat} (h : c.toNat < 16 ^ width) (rest : Text) :
    unhex? width 0 (hex width c.toNat ++ rest) = some (c, rest) := by
  have hread := unhex?_hex_append width 0 0 c.toNat rest
  rw [Nat.add_zero, Nat.mul_zero, Nat.zero_add, Nat.mod_eq_of_lt h] at hread
  rw [hread, unhex?, Char.ofNat_toNat]

theorem length_unhex?_le {width code : Nat} {text rest : Text} {c : Char}
    (h : unhex? width code text = some (c, rest)) : rest.length ≤ text.length := by
  induction width generalizing code text with
  | zero =>
    cases h
    exact Nat.le_refl _
  | succ width ih =>
    cases text with
    | nil => cases h
    | cons first text =>
      obtain ⟨digit, _, h⟩ := Option.bind_eq_some_iff.1 h
      exact Nat.le_succ_of_le (ih h)

theorem hex_ne_newline {width n : Nat} : ∀ c ∈ hex width n, c ≠ '\n' := by
  induction width generalizing n with
  | zero => simp [hex]
  | succ width ih =>
    have hdigit : ∀ digit < 16, Nat.digitChar digit ≠ '\n' := by decide
    intro c hc
    rw [hex, List.mem_append, List.mem_singleton] at hc
    rcases hc with hc | rfl
    · exact ih c hc
    · exact hdigit _ (Nat.mod_lt n (by decide))

/-! ## Characters and their escapes -/

/-- The ways to write a character of a text that is quoted with `quote`. -/
inductive Escaped (quote c : Char) : Text → Prop
  | marked (h : c = quote ∨ c = '\\') : Escaped quote c ['\\', c]
  | lettered {letter : Char} (h : (c, letter) ∈ [('\n', 'n'), ('\r', 'r'), ('\t', 't')]) :
      Escaped quote c ['\\', letter]
  | plain (hquote : c ≠ quote) (hslash : c ≠ '\\') (h : isPrintable c = true) : Escaped quote c [c]
  | coded {mark : Char} {width : Nat} (hmark : (mark, width) ∈ [('x', 2), ('u', 4), ('U', 8)])
      (h : c.toNat < 16 ^ width) : Escaped quote c ('\\' :: mark :: hex width c.toNat)

theorem escaped_escape (quote c : Char) : Escaped quote c (escape quote c) := by
  unfold escape
  by_cases hmark : c = quote ∨ c = '\\'
  · rw [if_pos (by simpa using hmark)]
    exact .marked hmark
  rw [if_neg (by simpa using hmark)]
  obtain ⟨hquote, hslash⟩ := not_or.1 hmark
  split
  · next h =>
    obtain rfl := eq_of_beq h
    exact .lettered (by simp)
  split
  · next h =>
    obtain rfl := eq_of_beq h
    exact .lettered (by simp)
  split
  · next h =>
    obtain rfl := eq_of_beq h
    exact .lettered (by simp)
  split
  · next h => exact .plain hquote hslash h
  split
  · next h => exact .coded (by simp) h
  split
  · next h => exact .coded (by simp) h
  · exact .coded (by simp) c.val.toNat_lt

/-- Reads one character, which may be escaped. -/
def unescape? : Text → Option (Char × Text)
  | [] => none
  | ['\\'] => none
  | '\\' :: 'n' :: rest => some ('\n', rest)
  | '\\' :: 'r' :: rest => some ('\r', rest)
  | '\\' :: 't' :: rest => some ('\t', rest)
  | '\\' :: 'x' :: rest => unhex? 2 0 rest
  | '\\' :: 'u' :: rest => unhex? 4 0 rest
  | '\\' :: 'U' :: rest => unhex? 8 0 rest
  | '\\' :: c :: rest => some (c, rest)
  | c :: rest => some (c, rest)

theorem length_unescape?_lt {text rest : Text} {c : Char} (h : unescape? text = some (c, rest)) :
    rest.length < text.length := by
  unfold unescape? at h
  split at h
  case h_6 | h_7 | h_8 =>
    exact Nat.lt_succ_of_le (Nat.le_succ_of_le (length_unhex?_le h))
  all_goals grind

section

variable {quote c : Char} {text : Text}

theorem Escaped.unescape?_append (h : Escaped quote c text) (hquote : quote = '\x27' ∨ quote = '\x22') (rest : Text) :
    unescape? (text ++ rest) = some (c, rest) := by
  cases h with
  | marked h =>
    rcases h with rfl | rfl
    · rcases hquote with rfl | rfl <;> rfl
    · rfl
  | lettered h =>
    simp only [List.mem_cons, Prod.mk.injEq, List.not_mem_nil, or_false] at h
    rcases h with ⟨rfl, rfl⟩ | ⟨rfl, rfl⟩ | ⟨rfl, rfl⟩ <;> rfl
  | plain _ hslash _ =>
    show unescape? (c :: rest) = _
    unfold unescape?
    split <;> simp_all
  | coded hmark h =>
    simp only [List.mem_cons, Prod.mk.injEq, List.not_mem_nil, or_false] at hmark
    rcases hmark with ⟨rfl, rfl⟩ | ⟨rfl, rfl⟩ | ⟨rfl, rfl⟩ <;> exact unhex?_hex h rest

theorem Escaped.head?_ne (h : Escaped quote c text) (hquote : quote = '\x27' ∨ quote = '\x22') (rest : Text) :
    (text ++ rest).head? ≠ some quote := by
  have hslash : '\\' ≠ quote := by rcases hquote with rfl | rfl <;> decide
  cases h with
  | plain hne _ _ => simpa using hne
  | marked _ | lettered _ | coded _ _ => simpa using hslash

theorem Escaped.newline_not_mem (h : Escaped quote c text) (hquote : quote = '\x27' ∨ quote = '\x22') :
    '\n' ∉ text := by
  cases h with
  | marked h =>
    have hc : c ≠ '\n' := by rcases h with rfl | rfl <;> rcases hquote with rfl | rfl <;> decide
    simpa using hc.symm
  | lettered h =>
    simp only [List.mem_cons, Prod.mk.injEq, List.not_mem_nil, or_false] at h
    rcases h with ⟨_, rfl⟩ | ⟨_, rfl⟩ | ⟨_, rfl⟩ <;> decide
  | plain _ _ h =>
    have hc : c ≠ '\n' := by
      rintro rfl
      exact absurd h (by decide)
    simpa using hc.symm
  | coded hmark _ =>
    simp only [List.mem_cons, Prod.mk.injEq, List.not_mem_nil, or_false] at hmark
    intro hm
    rcases hmark with ⟨rfl, _⟩ | ⟨rfl, _⟩ | ⟨rfl, _⟩ <;>
      exact hex_ne_newline '\n' (by simpa using hm) rfl

end

/-! ## Quoted text -/

/-- Reads escaped characters up to the closing quote. -/
def unquoteFrom? (quote : Char) (text : Text) : Option (Text × Text) :=
  if text.head? = some quote then some ([], text.tail)
  else match _h : unescape? text with
    | none => none
    | some (c, rest) => (unquoteFrom? quote rest).map fun (content, behind) => (c :: content, behind)
termination_by text.length
decreasing_by exact length_unescape?_lt _h

/-- Reads a quoted text. -/
def unquote? : Text → Option (Text × Text)
  | [] => none
  | quote :: text => unquoteFrom? quote text

theorem unquoteFrom?_of_unescape? {quote c : Char} {text rest : Text} (hhead : text.head? ≠ some quote)
    (h : unescape? text = some (c, rest)) :
    unquoteFrom? quote text = (unquoteFrom? quote rest).map fun (content, behind) => (c :: content, behind) := by
  rw [unquoteFrom?, if_neg hhead]
  split
  · simp_all
  · simp_all

theorem quoteFor_cases (text : Text) : quoteFor text = '\x27' ∨ quoteFor text = '\x22' := by
  unfold quoteFor
  split
  · exact Or.inr rfl
  · exact Or.inl rfl

theorem unquoteFrom?_flatMap {quote : Char} (hquote : quote = '\x27' ∨ quote = '\x22') (text rest : Text) :
    unquoteFrom? quote (text.flatMap (escape quote) ++ quote :: rest) = some (text, rest) := by
  induction text with
  | nil =>
    rw [List.flatMap_nil, List.nil_append, unquoteFrom?, if_pos List.head?_cons]
    rfl
  | cons c text ih =>
    have hescaped := escaped_escape quote c
    rw [List.flatMap_cons, List.append_assoc,
      unquoteFrom?_of_unescape? (hescaped.head?_ne hquote _) (hescaped.unescape?_append hquote _), ih]
    rfl

/-- A quoted text is read back, whatever follows it. -/
theorem unquote?_quoted (text rest : Text) : unquote? (quoted text ++ rest) = some (text, rest) := by
  show unquoteFrom? (quoteFor text) (text.flatMap (escape (quoteFor text)) ++ [quoteFor text] ++ rest) = _
  rw [List.append_assoc, List.singleton_append, unquoteFrom?_flatMap (quoteFor_cases text)]

theorem newline_not_mem_quoted (text : Text) : '\n' ∉ quoted text := by
  have hquote := quoteFor_cases text
  have hne : '\n' ≠ quoteFor text := by rcases hquote with h | h <;> rw [h] <;> decide
  intro hm
  simp only [quoted, List.mem_cons, List.mem_append, List.mem_flatMap, List.not_mem_nil, or_false] at hm
  rcases hm with h | ⟨c, _, h⟩ | h
  · exact hne h
  · exact (escaped_escape (quoteFor text) c).newline_not_mem hquote h
  · exact hne h

end DocLint.Text
