import DocLint.Json
import DocLint.Proofs.PathTexts
import DocLint.Proofs.QuotedText

/-!
# Reading JSON text back

A reader for JSON text: blanks may stand in front of everything, a character may be written by its code, and a code from
0xD800 to 0xDBFF is the first one of two. The text of a value is read back as the value (`read?_render`). What carries
this is that the text of a value tells where it ends, as long as no digit follows it (`Reads`): a text ends at its
quote, and a list or an object at its bracket.
-/

namespace DocLint.Json

/-! ## Characters -/

/-- Reads the code of one unit. -/
def unit? : Text → Option (Nat × Text)
  | a :: b :: c :: d :: rest => do
    let digits ← [a, b, c, d].mapM Text.hexValue?
    return (digits.foldl (fun code digit => 16 * code + digit) 0, rest)
  | _ => none

/-- Reads a character by its code, behind the first mark of a unit. -/
def coded? (text : Text) : Option (Char × Text) := do
  let (code, rest) ← unit? text
  if 0xD800 ≤ code ∧ code < 0xDC00 then
    match rest with
    | '\\' :: 'u' :: rest => do
      let (low, rest) ← unit? rest
      if 0xDC00 ≤ low ∧ low < 0xE000 then
        return (Char.ofNat (0x10000 + 0x400 * (code - 0xD800) + (low - 0xDC00)), rest)
      else none
    | _ => none
  else return (Char.ofNat code, rest)

/-- The letters behind a backslash, and what they stand for. -/
def letters : List (Char × Char) :=
  [('\x22', '\x22'), ('\\', '\\'), ('/', '/'), ('n', '\n'), ('r', '\r'), ('t', '\t'), ('b', '\x08'), ('f', '\x0c')]

/-- Reads one character, which may be escaped. -/
def unescape? : Text → Option (Char × Text)
  | '\\' :: 'u' :: rest => coded? rest
  | '\\' :: letter :: rest => (letters.lookup letter).map fun c => (c, rest)
  | ['\\'] | [] => none
  | c :: rest => if ' ' ≤ c then some (c, rest) else none

/-- The ways to write a character. -/
inductive Escaped (c : Char) : Text → Prop
  | lettered {letter : Char} (h : (letter, c) ∈ letters) : Escaped c ['\\', letter]
  | plain (hquote : c ≠ '\x22') (hslash : c ≠ '\\') (h : ' ' ≤ c) : Escaped c [c]
  | coded (h : c.toNat < 0x10000) : Escaped c (unit c.toNat)
  | pair (h : 0x10000 ≤ c.toNat) : Escaped c
      (unit (0xD800 + (c.toNat - 0x10000) / 0x400) ++ unit (0xDC00 + (c.toNat - 0x10000) % 0x400))

theorem escaped_escape (c : Char) : Escaped c (escape c) := by
  unfold escape
  split
  · next h => exact .lettered (h ▸ by decide)
  · next hquote =>
    split
    · next h => exact .lettered (h ▸ by decide)
    · next hslash =>
      split
      · next h => exact .lettered (h ▸ by decide)
      split
      · next h => exact .lettered (h ▸ by decide)
      split
      · next h => exact .lettered (h ▸ by decide)
      split
      · next h => exact .lettered (h ▸ by decide)
      split
      · next h => exact .lettered (h ▸ by decide)
      split
      · next h => exact .plain hquote hslash h.1
      split
      · next h => exact .coded h
      · next h => exact .pair (Nat.le_of_not_lt h)

theorem unit?_hex {code : Nat} (h : code < 0x10000) (rest : Text) :
    unit? (Text.hex 4 code ++ rest) = some (code, rest) := by
  have hdigit : ∀ n, Text.hexValue? (Nat.digitChar (n % 16)) = some (n % 16) := by
    intro n
    exact Text.hexValue?_digitChar _ (Nat.mod_lt n (by decide))
  have hcode : 16 * (16 * (16 * (code / 16 / 16 / 16 % 16) + code / 16 / 16 % 16) + code / 16 % 16) + code % 16 =
      code := by
    omega
  show (([_, _, _, _].mapM Text.hexValue?).bind fun digits => some (digits.foldl _ 0, rest)) = _
  simp [hdigit, hcode]

theorem Escaped.unescape?_append {c : Char} {text : Text} (h : Escaped c text) (rest : Text) :
    unescape? (text ++ rest) = some (c, rest) := by
  cases h with
  | lettered h =>
    simp only [letters, List.mem_cons, Prod.mk.injEq, List.not_mem_nil, or_false] at h
    rcases h with ⟨rfl, rfl⟩ | ⟨rfl, rfl⟩ | ⟨rfl, rfl⟩ | ⟨rfl, rfl⟩ | ⟨rfl, rfl⟩ | ⟨rfl, rfl⟩ | ⟨rfl, rfl⟩ | ⟨rfl, rfl⟩
      <;> rfl
  | plain _ hslash h =>
    show unescape? (c :: rest) = _
    unfold unescape?
    split <;> simp_all
  | coded h =>
    -- no character has a code that is the first one of two
    have hsingle : ¬ (0xD800 ≤ c.toNat ∧ c.toNat < 0xDC00) := by
      have hvalid := c.valid
      unfold UInt32.isValidChar Nat.isValidChar at hvalid
      have : c.val.toNat = c.toNat := rfl
      omega
    show coded? (Text.hex 4 c.toNat ++ rest) = _
    rw [coded?, unit?_hex h, Option.bind_eq_bind, Option.bind_some]
    dsimp only
    rw [if_neg hsingle, Char.ofNat_toNat]
    rfl
  | pair h =>
    have hlast : c.toNat < 0x110000 := by
      have hvalid := c.valid
      unfold UInt32.isValidChar Nat.isValidChar at hvalid
      have : c.val.toNat = c.toNat := rfl
      omega
    have hhigh : 0xD800 + (c.toNat - 0x10000) / 0x400 < 0x10000 := by omega
    have hlow : 0xDC00 + (c.toNat - 0x10000) % 0x400 < 0x10000 := by omega
    have hjoin : 0x10000 + 0x400 * (0xD800 + (c.toNat - 0x10000) / 0x400 - 0xD800) +
        (0xDC00 + (c.toNat - 0x10000) % 0x400 - 0xDC00) = c.toNat := by
      omega
    have hunits : coded? (Text.hex 4 (0xD800 + (c.toNat - 0x10000) / 0x400) ++
        '\\' :: 'u' :: (Text.hex 4 (0xDC00 + (c.toNat - 0x10000) % 0x400) ++ rest)) = some (c, rest) := by
      rw [coded?, unit?_hex hhigh, Option.bind_eq_bind, Option.bind_some]
      dsimp only
      rw [if_pos (by omega)]
      show (unit? (Text.hex 4 (0xDC00 + (c.toNat - 0x10000) % 0x400) ++ rest)).bind _ = _
      rw [unit?_hex hlow, Option.bind_some]
      dsimp only
      rw [if_pos (by omega), hjoin, Char.ofNat_toNat]
      rfl
    rw [List.append_assoc]
    exact hunits

theorem Escaped.head?_ne {c : Char} {text : Text} (h : Escaped c text) (rest : Text) :
    (text ++ rest).head? ≠ some '\x22' := by
  cases h with
  | plain hquote _ _ => simpa using hquote
  | lettered _ | coded _ | pair _ => simp [unit]

theorem Escaped.length_pos {c : Char} {text : Text} (h : Escaped c text) : 0 < text.length := by
  cases h with
  | lettered _ | plain _ _ _ | coded _ | pair _ => simp [unit]

/-! ## Texts -/

/-- Reads escaped characters up to the closing quote. -/
def readText : (fuel : Nat) → Text → Option (Text × Text)
  | 0, _ => none
  | fuel + 1, input =>
    if input.head? = some '\x22' then some ([], input.tail)
    else do
      let (c, rest) ← unescape? input
      let (content, rest) ← readText fuel rest
      return (c :: content, rest)

theorem readText_flatMap (text rest : Text) {fuel : Nat} (h : text.length < fuel) :
    readText fuel (text.flatMap escape ++ '\x22' :: rest) = some (text, rest) := by
  induction text generalizing fuel with
  | nil =>
    obtain ⟨fuel, rfl⟩ := Nat.exists_eq_succ_of_ne_zero (Nat.ne_of_gt h)
    rfl
  | cons c text ih =>
    obtain ⟨fuel, rfl⟩ := Nat.exists_eq_succ_of_ne_zero (Nat.ne_zero_of_lt h)
    have hescaped := escaped_escape c
    rw [List.flatMap_cons, List.append_assoc, readText, if_neg (hescaped.head?_ne _), hescaped.unescape?_append]
    show (readText fuel _ >>= _) = _
    rw [ih (Nat.lt_of_succ_lt_succ h)]
    rfl

theorem length_le_flatMap_escape (text : Text) : text.length ≤ (text.flatMap escape).length := by
  induction text with
  | nil => exact Nat.le_refl _
  | cons c text ih =>
    have hpos := (escaped_escape c).length_pos
    rw [List.flatMap_cons, List.length_append, List.length_cons]
    omega

theorem readText_quoted (text rest : Text) :
    readText (text.flatMap escape ++ '\x22' :: rest).length (text.flatMap escape ++ '\x22' :: rest) =
      some (text, rest) := by
  refine readText_flatMap text rest ?_
  have hlength := length_le_flatMap_escape text
  rw [List.length_append, List.length_cons]
  omega

/-! ## Values -/

/-- May the character stand between the parts of a value? -/
def isBlank (c : Char) : Bool := c == ' ' || c == '\n' || c == '\r' || c == '\t'

/-- The text without the blanks in front. -/
def skip (text : Text) : Text := text.dropWhile isBlank

/-- Reads the other parts of a list or an object, each behind a comma. -/
def readMore {α : Type} (closer : Char) (read : Text → Option (α × Text)) : (fuel : Nat) → Text → Option (List α × Text)
  | 0, _ => none
  | fuel + 1, input =>
    match skip input with
    | [] => none
    | c :: rest =>
      if c = closer then some ([], rest)
      else if c = ',' then do
        let (part, rest) ← read rest
        let (more, rest) ← readMore closer read fuel rest
        return (part :: more, rest)
      else none

/-- Reads the parts of a list or an object up to its closing bracket. -/
def readBlock {α : Type} (closer : Char) (read : Text → Option (α × Text)) (fuel : Nat) (text : Text) :
    Option (List α × Text) :=
  match read text with
  | some (part, rest) => (readMore closer read fuel rest).map fun (more, rest) => (part :: more, rest)
  | none => if (skip text).head? = some closer then some ([], (skip text).tail) else none

/-- Reads a field of an object. -/
def readField (read : Text → Option (Json × Text)) (text : Text) : Option ((Text × Json) × Text) :=
  match skip text with
  | '\x22' :: rest => do
    let (key, rest) ← readText rest.length rest
    match skip rest with
    | ':' :: rest => (read rest).map fun (value, rest) => ((key, value), rest)
    | _ => none
  | _ => none

/-- Reads a value. -/
def readValue : (fuel : Nat) → Text → Option (Json × Text)
  | 0, _ => none
  | fuel + 1, input =>
    match skip input with
    | '\x22' :: rest => (readText rest.length rest).map fun (content, rest) => (.text content, rest)
    | '[' :: rest => (readBlock ']' (readValue fuel) fuel rest).map fun (items, rest) => (.list items, rest)
    | '\x7b' :: rest =>
      (readBlock '\x7d' (readField (readValue fuel)) fuel rest).map fun (fields, rest) => (.object fields, rest)
    | rest => (Text.readInt? rest).map fun (value, rest) => (.number value, rest)

/-- Reads a text that is one value. -/
def read? (text : Text) : Option Json := do
  let (value, rest) ← readValue (text.length + 1) text
  if (skip rest).isEmpty then return value else none

/-! ## Where values end -/

/-- No digit comes next. -/
def NoDigit (rest : Text) : Prop := ∀ c, rest.head? = some c → c.isDigit = false

/-- All characters are blanks. -/
def Blank (text : Text) : Prop := ∀ c ∈ text, isBlank c = true

/-- The value is read from the text, whatever blanks stand in front, and what follows it is left. -/
def Reads {α : Type} (read : Nat → Text → Option (α × Text)) (text : Text) (value : α) : Prop :=
  ∀ fuel blanks rest, text.length < fuel → Blank blanks → NoDigit rest →
    read fuel (blanks ++ (text ++ rest)) = some (value, rest)

theorem skip_append {blanks : Text} (h : Blank blanks) (text : Text) : skip (blanks ++ text) = skip text :=
  List.dropWhile_append_of_pos h

theorem skip_cons {c : Char} (h : isBlank c = false) (rest : Text) : skip (c :: rest) = c :: rest :=
  List.dropWhile_cons_of_neg (by rw [h]; exact Bool.false_ne_true)

theorem blank_line (depth : Nat) : Blank (line depth) := by
  intro c hc
  rcases List.mem_cons.1 hc with rfl | hc
  · rfl
  · rw [List.eq_of_mem_replicate hc]
    rfl

theorem noDigit_cons {c : Char} (h : c.isDigit = false) (rest : Text) : NoDigit (c :: rest) := by
  intro first hfirst
  obtain rfl := Option.some.inj hfirst
  exact h

theorem reads_text (text : Text) : Reads readValue (quote text) (.text text) := by
  intro fuel blanks rest hfuel hblanks _
  obtain ⟨fuel, rfl⟩ := Nat.exists_eq_succ_of_ne_zero (Nat.ne_zero_of_lt hfuel)
  have hquote : quote text ++ rest = '\x22' :: (text.flatMap escape ++ '\x22' :: rest) := by
    simp [quote]
  rw [readValue, skip_append hblanks, hquote, skip_cons rfl]
  show (readText _ _).map _ = _
  rw [readText_quoted]
  rfl

theorem reads_number (value : Int) : Reads readValue (Text.ofInt value) (.number value) := by
  intro fuel blanks rest hfuel hblanks hrest
  obtain ⟨fuel, rfl⟩ := Nat.exists_eq_succ_of_ne_zero (Nat.ne_zero_of_lt hfuel)
  -- the first character is a digit or the sign, and no other part of a value starts like that
  obtain ⟨c, digits, hdigits⟩ := List.exists_cons_of_ne_nil (Text.ofInt_ne_nil value)
  have hfirst : ∀ mark, mark ≠ '-' → mark.isDigit = false → c ≠ mark := fun mark hminus hdigit =>
    Text.ne_of_mem_ofInt (hdigits ▸ List.mem_cons_self) hminus hdigit
  have hskip : skip (Text.ofInt value ++ rest) = Text.ofInt value ++ rest := by
    rw [hdigits]
    refine skip_cons ?_ _
    simp [isBlank, hfirst]
  rw [readValue, skip_append hblanks, hskip]
  split
  · next heq => exact absurd (List.cons.inj (hdigits ▸ heq)).1 (hfirst _ (by decide) rfl)
  · next heq => exact absurd (List.cons.inj (hdigits ▸ heq)).1 (hfirst _ (by decide) rfl)
  · next heq => exact absurd (List.cons.inj (hdigits ▸ heq)).1 (hfirst _ (by decide) rfl)
  · rw [Text.readInt?_ofInt hrest]
    rfl

theorem reads_field (key : Text) {part : Text} {value : Json} (h : Reads readValue part value) :
    Reads (fun fuel => readField (readValue fuel)) (quote key ++ ": ".toList ++ part) (key, value) := by
  intro fuel blanks rest hfuel hblanks hrest
  have hquote : quote key ++ ": ".toList ++ part ++ rest =
      '\x22' :: (key.flatMap escape ++ '\x22' :: ':' :: ([' '] ++ (part ++ rest))) := by
    simp [quote]
  have hpart : part.length < fuel := by
    simp only [List.length_append] at hfuel
    omega
  dsimp only
  rw [readField, skip_append hblanks, hquote, skip_cons rfl]
  show (readText _ _ >>= _) = _
  rw [readText_quoted, Option.bind_eq_bind, Option.bind_some]
  dsimp only
  rw [skip_cons rfl]
  show (readValue fuel ([' '] ++ (part ++ rest))).map _ = _
  have hblank : Blank [' '] := by
    intro c hc
    rw [List.mem_singleton.1 hc]
    rfl
  rw [h fuel [' '] rest hpart hblank hrest]
  rfl

/-! ## Lists and objects -/

section Block

variable {α : Type} {read : Nat → Text → Option (α × Text)} {opener closer : Char} {depth fuel count : Nat}
  {parts : List Text} {values : List α}

theorem noDigit_parts (parts : List Text) (rest : Text) :
    NoDigit (parts.flatMap (fun part => ',' :: (line (depth + 1) ++ part)) ++ (line depth ++ closer :: rest)) := by
  cases parts with
  | nil => exact noDigit_cons rfl _
  | cons part parts => exact noDigit_cons rfl _

/-- The parts behind the first one are read one after the other, up to the bracket. -/
theorem readMore_parts (hcloser : isBlank closer = false) (hcomma : ',' ≠ closer)
    (h : List.Forall₂ (Reads read) parts values) (hfuel : ∀ part ∈ parts, part.length < fuel)
    (hcount : parts.length < count) (rest : Text) :
    readMore closer (read fuel) count
      (parts.flatMap (fun part => ',' :: (line (depth + 1) ++ part)) ++ (line depth ++ closer :: rest)) =
        some (values, rest) := by
  induction h generalizing count with
  | nil =>
    obtain ⟨count, rfl⟩ := Nat.exists_eq_succ_of_ne_zero (Nat.ne_zero_of_lt hcount)
    rw [List.flatMap_nil, List.nil_append, readMore, skip_append (blank_line depth), skip_cons hcloser]
    dsimp only
    rw [if_pos rfl]
  | @cons part value parts values hpart _ ih =>
    obtain ⟨count, rfl⟩ := Nat.exists_eq_succ_of_ne_zero (Nat.ne_zero_of_lt hcount)
    obtain ⟨hlength, hfuel⟩ := List.forall_mem_cons.1 hfuel
    have hmore := ih hfuel (Nat.lt_of_succ_lt_succ hcount)
    rw [List.flatMap_cons, List.append_assoc, List.cons_append, List.append_assoc, readMore, skip_cons rfl]
    dsimp only
    rw [if_neg hcomma, if_pos rfl, hpart fuel _ _ hlength (blank_line _) (noDigit_parts parts rest), Option.bind_eq_bind, Option.bind_some]
    dsimp only
    rw [hmore]
    rfl

theorem length_parts (parts : List Text) (indent : Text) :
    parts.length ≤ (parts.flatMap fun part => ',' :: (indent ++ part)).length ∧
      ∀ part ∈ parts, part.length ≤ (parts.flatMap fun part => ',' :: (indent ++ part)).length := by
  induction parts with
  | nil => exact ⟨Nat.le_refl _, fun _ hm => absurd hm List.not_mem_nil⟩
  | cons part parts ih =>
    rw [List.flatMap_cons, List.length_append, List.length_cons, List.length_cons, List.length_append]
    refine ⟨by omega, List.forall_mem_cons.2 ⟨by omega, fun other hm => ?_⟩⟩
    have hother := ih.2 other hm
    omega

/-- Behind the opening bracket, the parts are read and what follows the closing bracket is left. -/
theorem readBlock_block (hcloser : isBlank closer = false) (hcomma : ',' ≠ closer)
    (hempty : ∀ rest, read fuel (closer :: rest) = none) (h : List.Forall₂ (Reads read) parts values)
    (hfuel : (block opener closer depth parts).length ≤ fuel) (rest : Text) :
    ∃ body, block opener closer depth parts ++ rest = opener :: body ∧
      readBlock closer (read fuel) fuel body = some (values, rest) := by
  cases h with
  | nil =>
    refine ⟨closer :: rest, rfl, ?_⟩
    rw [readBlock, hempty, skip_cons hcloser]
    dsimp only
    rw [if_pos List.head?_cons]
    rfl
  | @cons part value parts values hpart hparts =>
    have hblock : block opener closer depth (part :: parts) = opener :: (line (depth + 1) ++ (part ++
        (parts.flatMap (fun part => ',' :: (line (depth + 1) ++ part)) ++ (line depth ++ [closer])))) := by
      show opener :: line (depth + 1) ++ Text.join (',' :: line (depth + 1)) (part :: parts) ++ line depth ++ [closer] = _
      rw [Text.join_cons]
      simp only [List.cons_append, List.append_assoc]
    obtain ⟨hcount, hlength⟩ := length_parts parts (line (depth + 1))
    rw [hblock] at hfuel ⊢
    simp only [List.length_cons, List.length_append, List.length_nil] at hfuel
    have hpartFuel : part.length < fuel := by omega
    have hshort : ∀ other ∈ parts, other.length < fuel := by
      intro other hm
      have hother := hlength other hm
      omega
    refine ⟨_, by simp only [List.cons_append, List.append_assoc, List.nil_append]; rfl, ?_⟩
    rw [readBlock, hpart fuel _ _ hpartFuel (blank_line _) (noDigit_parts parts rest)]
    dsimp only
    rw [readMore_parts hcloser hcomma hparts hshort (by omega)]
    rfl

end Block

theorem reads_list {depth : Nat} {parts : List Text} {items : List Json}
    (h : List.Forall₂ (Reads readValue) parts items) : Reads readValue (block '[' ']' depth parts) (.list items) := by
  intro fuel blanks rest hfuel hblanks _
  obtain ⟨fuel, rfl⟩ := Nat.exists_eq_succ_of_ne_zero (Nat.ne_zero_of_lt hfuel)
  have hempty : ∀ rest, readValue fuel (']' :: rest) = none := by
    intro rest
    cases fuel with
    | zero => rfl
    | succ fuel => rfl
  obtain ⟨body, hbody, hread⟩ := readBlock_block rfl (by decide) hempty h (Nat.le_of_lt_succ hfuel) rest
  rw [readValue, skip_append hblanks, hbody, skip_cons rfl]
  show (readBlock ']' (readValue fuel) fuel body).map _ = _
  rw [hread]
  rfl

theorem reads_object {depth : Nat} {parts : List Text} {fields : List (Text × Json)}
    (h : List.Forall₂ (Reads fun fuel => readField (readValue fuel)) parts fields) :
    Reads readValue (block '\x7b' '\x7d' depth parts) (.object fields) := by
  intro fuel blanks rest hfuel hblanks _
  obtain ⟨fuel, rfl⟩ := Nat.exists_eq_succ_of_ne_zero (Nat.ne_zero_of_lt hfuel)
  obtain ⟨body, hbody, hread⟩ := readBlock_block rfl (by decide) (fun _ => rfl) h (Nat.le_of_lt_succ hfuel) rest
  rw [readValue, skip_append hblanks, hbody, skip_cons rfl]
  show (readBlock '\x7d' (readField (readValue fuel)) fuel body).map _ = _
  rw [hread]
  rfl

/-! ## Whole texts -/

mutual

theorem reads_render (depth : Nat) : (value : Json) → Reads readValue (value.render depth) value
  | .text content => reads_text content
  | .number value => reads_number value
  | .list items => reads_list (reads_renderItems (depth + 1) items)
  | .object fields => reads_object (reads_renderFields (depth + 1) fields)

theorem reads_renderItems (depth : Nat) :
    (items : List Json) → List.Forall₂ (Reads readValue) (renderItems depth items) items
  | [] => .nil
  | item :: rest => .cons (reads_render depth item) (reads_renderItems depth rest)

theorem reads_renderFields (depth : Nat) : (fields : List (Text × Json)) →
    List.Forall₂ (Reads fun fuel => readField (readValue fuel)) (renderFields depth fields) fields
  | [] => .nil
  | (key, value) :: rest => .cons (reads_field key (reads_render depth value)) (reads_renderFields depth rest)

end

/-- The text of a value is read back, with blanks behind it or not. -/
theorem read?_render (depth : Nat) (value : Json) {blanks : Text} (h : Blank blanks) :
    read? (value.render depth ++ blanks) = some value := by
  have hend : NoDigit blanks := by
    intro c hc
    have hblank := h c (List.mem_of_head? hc)
    simp only [isBlank, Bool.or_eq_true, beq_iff_eq] at hblank
    rcases hblank with ((rfl | rfl) | rfl) | rfl
    all_goals rfl
  have hread := reads_render depth value ((value.render depth ++ blanks).length + 1) [] blanks
    (by rw [List.length_append]; omega) (fun _ hm => absurd hm List.not_mem_nil) hend
  have hskip : skip blanks = [] := by
    have hall := skip_append h []
    rw [List.append_nil] at hall
    exact hall
  rw [List.nil_append] at hread
  rw [read?, hread, Option.bind_eq_bind, Option.bind_some]
  dsimp only
  rw [hskip]
  rfl

end DocLint.Json
