import DocLint.Rule.TagValidator
import DocLint.Rule.DocComment
import Mathlib.Data.List.Find
import Mathlib.Data.List.Induction

/-!
# Line ends

A line ends with a line feed, or with a carriage return and a line feed (`LineEnd`). A text is spelled the
second way by putting a carriage return before each line feed (`Text.spell`). Most functions on text cannot
tell: they take both characters for white space, or for neither of the characters they look for, and then
spelling comes before or after them with the same result.
-/

namespace DocLint

/-- How the end of a line is written. -/
inductive LineEnd where
  /-- With a line feed. -/
  | lf
  /-- With a carriage return and a line feed. -/
  | crlf
  deriving DecidableEq

/-- The end of a line. -/
def LineEnd.text : LineEnd → Text
  | lf => ['\n']
  | crlf => ['\r', '\n']

namespace Text

/-- A property of the characters of a text is decided along the text. -/
instance (priority := 2000) decidableForallMem (p : Char → Prop) [DecidablePred p] (text : Text) :
    Decidable (∀ c ∈ text, p c) :=
  List.decidableBAll p text

/-- The text with each line feed written as the given end of a line. -/
def spell (e : LineEnd) (text : Text) : Text := text.flatMap fun c => if c = '\n' then e.text else [c]

variable {e : LineEnd} {c : Char} {text rest tail : Text}

@[simp] theorem spell_nil : spell e [] = [] := rfl

theorem spell_newline : spell e ('\n' :: rest) = e.text ++ spell e rest := by
  simp [spell]

theorem spell_cons (h : c ≠ '\n') : spell e (c :: rest) = c :: spell e rest := by
  simp [spell, h]

theorem spell_append (one other : Text) : spell e (one ++ other) = spell e one ++ spell e other := by
  simp [spell]

@[simp] theorem spell_lf (text : Text) : spell .lf text = text := by
  induction text with
  | nil => rfl
  | cons c rest ih =>
    by_cases h : c = '\n'
    · subst h
      rw [spell_newline, ih]
      rfl
    · rw [spell_cons h, ih]

theorem spell_of_not_mem (h : '\n' ∉ text) : spell e text = text := by
  induction text with
  | nil => rfl
  | cons c rest ih =>
    rw [List.mem_cons, not_or] at h
    rw [spell_cons (Ne.symm h.1), ih h.2]

@[simp] theorem spell_eq_nil : spell e text = [] ↔ text = [] := by
  cases text with
  | nil => simp
  | cons c rest =>
    by_cases h : c = '\n'
    · subst h
      rw [spell_newline]
      cases e with
      | lf => simp [LineEnd.text]
      | crlf => simp [LineEnd.text]
    · simp [spell_cons h]

theorem spell_isEmpty : (spell e text).isEmpty = text.isEmpty := by
  rw [Bool.eq_iff_iff, List.isEmpty_iff, List.isEmpty_iff, spell_eq_nil]

theorem count_spell : (spell e text).count '\n' = text.count '\n' := by
  induction text with
  | nil => rfl
  | cons c rest ih =>
    by_cases h : c = '\n'
    · subst h
      rw [spell_newline, List.count_append, ih]
      cases e with
      | lf => simp [LineEnd.text, Nat.add_comm]
      | crlf => simp [LineEnd.text, Nat.add_comm]
    · rw [spell_cons h, List.count_cons, List.count_cons, ih]

/-! ## Spelling can be undone -/

/-- A line feed has a carriage return before it. -/
theorem spell_crlf_ne : spell .crlf text ≠ '\n' :: rest := by
  cases text with
  | nil => simp
  | cons c more =>
    by_cases h : c = '\n'
    · subst h
      simp [spell_newline, LineEnd.text]
    · simp [spell_cons h, h]

theorem spell_injective {one other : Text} (h : spell e one = spell e other) : one = other := by
  cases e with
  | lf => simpa using h
  | crlf =>
    induction one generalizing other with
    | nil => exact (spell_eq_nil.1 h.symm).symm
    | cons c one ih =>
      cases other with
      | nil => exact spell_eq_nil.1 h
      | cons d other =>
        by_cases hc : c = '\n'
        · by_cases hd : d = '\n'
          · subst hc hd
            rw [spell_newline, spell_newline] at h
            rw [ih (List.append_cancel_left h)]
          · subst hc
            rw [spell_newline, spell_cons hd] at h
            exact absurd (List.cons.inj h).2.symm spell_crlf_ne
        · by_cases hd : d = '\n'
          · subst hd
            rw [spell_newline, spell_cons hc] at h
            exact absurd (List.cons.inj h).2 spell_crlf_ne
          · rw [spell_cons hc, spell_cons hd] at h
            obtain ⟨rfl, hrest⟩ := List.cons.inj h
            rw [ih hrest]

theorem spell_inj {one other : Text} : spell e one = spell e other ↔ one = other :=
  ⟨spell_injective, fun h => by rw [h]⟩

theorem spell_beq {one other : Text} : (spell e one == spell e other) = (one == other) := by
  rw [Bool.eq_iff_iff, beq_iff_eq, beq_iff_eq, spell_inj]

/-- A text without a line feed is spelled only as itself. -/
theorem spell_eq_iff {mark : Text} (h : '\n' ∉ mark) : spell e text = mark ↔ text = mark := by
  constructor
  · intro heq
    exact spell_injective (heq.trans (spell_of_not_mem h).symm)
  · rintro rfl
    exact spell_of_not_mem h

theorem spell_beq_mark {mark : Text} (h : '\n' ∉ mark) : (spell e text == mark) = (text == mark) := by
  rw [Bool.eq_iff_iff, beq_iff_eq, beq_iff_eq, spell_eq_iff h]

theorem contains_map_spell {texts : List Text} :
    (texts.map (spell e)).contains (spell e text) = texts.contains text := by
  induction texts with
  | nil => rfl
  | cons one more ih => rw [List.map_cons, List.contains_cons, List.contains_cons, ih, spell_beq]

theorem contains_map_spell_mark {texts : List Text} {mark : Text} (h : '\n' ∉ mark) :
    (texts.map (spell e)).contains mark = texts.contains mark := by
  have hmark : spell e mark = mark := spell_of_not_mem h
  rw [← hmark, contains_map_spell, hmark]

/-! ## Taking and dropping -/

section While

variable {p : Char → Bool} (hp : p '\r' = p '\n')
include hp

theorem takeWhile_lineEnd :
    (e.text ++ rest).takeWhile p = if p '\n' then e.text ++ rest.takeWhile p else [] := by
  cases e with
  | lf => simp [LineEnd.text, List.takeWhile_cons]
  | crlf =>
    by_cases h : p '\n' = true
    · simp [LineEnd.text, hp, h]
    · simp [LineEnd.text, hp, h]

/-- Some character of the text stops the run, so that the tail is not reached. -/
theorem takeWhile_spell_append (h : tail = [] ∨ ∃ c ∈ text, p c = false) :
    (spell e text ++ tail).takeWhile p = spell e (text.takeWhile p) := by
  induction text with
  | nil =>
    obtain rfl : tail = [] := by simpa using h
    rfl
  | cons c rest ih =>
    by_cases hpc : p c = true
    · have hrest : tail = [] ∨ ∃ c ∈ rest, p c = false := by
        rcases h with h | ⟨d, hd, hpd⟩
        · exact Or.inl h
        · rcases List.mem_cons.1 hd with rfl | hd
          · rw [hpc] at hpd
            cases hpd
          · exact Or.inr ⟨d, hd, hpd⟩
      rw [List.takeWhile_cons_of_pos hpc]
      by_cases hc : c = '\n'
      · subst hc
        rw [spell_newline, spell_newline, List.append_assoc, takeWhile_lineEnd hp, if_pos hpc,
          ih hrest]
      · rw [spell_cons hc, spell_cons hc, List.cons_append, List.takeWhile_cons_of_pos hpc,
          ih hrest]
    · rw [List.takeWhile_cons_of_neg hpc]
      by_cases hc : c = '\n'
      · subst hc
        rw [spell_newline, List.append_assoc, takeWhile_lineEnd hp, if_neg hpc]
        rfl
      · rw [spell_cons hc, List.cons_append, List.takeWhile_cons_of_neg hpc]
        rfl

theorem dropWhile_spell_append (h : tail = [] ∨ ∃ c ∈ text, p c = false) :
    (spell e text ++ tail).dropWhile p = spell e (text.dropWhile p) ++ tail := by
  -- both parts of the text are those of the run
  have htake := takeWhile_spell_append (e := e) hp h
  have hall : (spell e text ++ tail).takeWhile p ++ (spell e text ++ tail).dropWhile p =
      spell e (text.takeWhile p) ++ (spell e (text.dropWhile p) ++ tail) := by
    rw [List.takeWhile_append_dropWhile, ← List.append_assoc, ← spell_append,
      List.takeWhile_append_dropWhile]
  rw [htake] at hall
  exact List.append_cancel_left hall

theorem takeWhile_spell : (spell e text).takeWhile p = spell e (text.takeWhile p) := by
  have h : (spell e text ++ []).takeWhile p = spell e (text.takeWhile p) :=
    takeWhile_spell_append hp (Or.inl rfl)
  rwa [List.append_nil] at h

theorem dropWhile_spell : (spell e text).dropWhile p = spell e (text.dropWhile p) := by
  have h : (spell e text ++ []).dropWhile p = spell e (text.dropWhile p) ++ [] :=
    dropWhile_spell_append hp (Or.inl rfl)
  rwa [List.append_nil, List.append_nil] at h

theorem dropEndWhile_lineEnd (text : Text) :
    dropEndWhile p (text ++ e.text) = if p '\n' then dropEndWhile p text else text ++ e.text := by
  cases e with
  | lf =>
    by_cases h : p '\n' = true
    · simp [dropEndWhile, LineEnd.text, h]
    · simp [dropEndWhile, LineEnd.text, h]
  | crlf =>
    by_cases h : p '\n' = true
    · simp [dropEndWhile, LineEnd.text, hp, h]
    · simp [dropEndWhile, LineEnd.text, h]

theorem dropEndWhile_spell : dropEndWhile p (spell e text) = spell e (dropEndWhile p text) := by
  induction text using List.reverseRecOn with
  | nil => rfl
  | append_singleton text c ih =>
    have hstep : dropEndWhile p (text ++ [c]) = if p c then dropEndWhile p text else text ++ [c] := by
      by_cases h : p c = true
      · simp [dropEndWhile, h]
      · simp [dropEndWhile, h]
    rw [hstep, spell_append]
    by_cases hc : c = '\n'
    · subst hc
      have hend : spell e ['\n'] = e.text := by simp [spell]
      rw [hend, dropEndWhile_lineEnd hp, ih]
      split
      · rfl
      · rw [spell_append, hend]
    · have hsame : spell e [c] = [c] := by simp [spell_cons hc]
      rw [hsame]
      have hstep' : dropEndWhile p (spell e text ++ [c]) =
          if p c then dropEndWhile p (spell e text) else spell e text ++ [c] := by
        by_cases h : p c = true
        · simp [dropEndWhile, h]
        · simp [dropEndWhile, h]
      rw [hstep', ih]
      split
      · rfl
      · rw [spell_append, hsame]

end While

theorem trim_spell : trim (spell e text) = spell e (trim text) := by
  have hp : isSpace '\r' = isSpace '\n' := by decide
  rw [trim, trim, dropWhile_spell hp, dropEndWhile_spell hp]

theorem words_zero (text : Text) :
    words 0 text = if (text.dropWhile isSpace).isEmpty then [] else [text.dropWhile isSpace] := by
  rw [words.eq_def]
  dsimp only
  cases text.dropWhile isSpace with
  | nil => rfl
  | cons c rest => rfl

theorem words_succ (cuts : Nat) (text : Text) :
    words (cuts + 1) text = if (text.dropWhile isSpace).isEmpty then []
      else (text.dropWhile isSpace).takeWhile (!isSpace ·) ::
        words cuts ((text.dropWhile isSpace).dropWhile (!isSpace ·)) := by
  rw [words.eq_def]
  dsimp only
  cases text.dropWhile isSpace with
  | nil => rfl
  | cons c rest => rfl

theorem words_spell (cuts : Nat) : words cuts (spell e text) = (words cuts text).map (spell e) := by
  have hp : isSpace '\r' = isSpace '\n' := by decide
  have hn : (!isSpace '\r') = !isSpace '\n' := by decide
  induction cuts generalizing text with
  | zero =>
    rw [words_zero, words_zero, dropWhile_spell hp, spell_isEmpty]
    split <;> rfl
  | succ cuts ih =>
    rw [words_succ, words_succ, dropWhile_spell hp, spell_isEmpty]
    split
    · rfl
    · rw [takeWhile_spell hn, dropWhile_spell hn, ih, List.map_cons]

theorem splitWhere_ne_nil (p : Char → Bool) (text : Text) : splitWhere p text ≠ [] := by
  cases text with
  | nil => simp [splitWhere]
  | cons c rest =>
    rw [splitWhere]
    split
    · simp
    · split <;> simp

/-- A character that is no mark belongs to the first part. -/
theorem splitWhere_cons_neg {p : Char → Bool} (h : p c = false) {part : Text} {parts : List Text}
    (hrest : splitWhere p rest = part :: parts) : splitWhere p (c :: rest) = (c :: part) :: parts := by
  simp [splitWhere, h, hrest]

theorem splitWhere_spell {p : Char → Bool} (hr : p '\r' = false) (hn : p '\n' = false) :
    splitWhere p (spell e text) = (splitWhere p text).map (spell e) := by
  induction text with
  | nil => rfl
  | cons c rest ih =>
    by_cases hpc : p c = true
    · have hc : c ≠ '\n' := by
        rintro rfl
        rw [hn] at hpc
        cases hpc
      rw [spell_cons hc, splitWhere, if_pos hpc, ih, splitWhere, if_pos hpc]
      rfl
    · have hno : p c = false := by simpa using hpc
      obtain ⟨part, parts, hparts⟩ := List.exists_cons_of_ne_nil (splitWhere_ne_nil p rest)
      rw [hparts, List.map_cons] at ih
      rw [splitWhere_cons_neg hno hparts, List.map_cons]
      by_cases hc : c = '\n'
      · subst hc
        rw [spell_newline, spell_newline]
        cases e with
        | lf => exact splitWhere_cons_neg hn ih
        | crlf => exact splitWhere_cons_neg hr (splitWhere_cons_neg hn ih)
      · rw [spell_cons hc, spell_cons hc]
        exact splitWhere_cons_neg hno ih

/-! ## Marks -/

section Marks

variable {mark : Text} (g : Char → Char)

theorem isPrefixOf_cons_ne {m d : Char} (h : d ≠ m) : (m :: mark).isPrefixOf (d :: rest) = false := by
  rw [List.isPrefixOf_cons_cons, beq_false_of_ne (Ne.symm h), Bool.false_and]

/-- A mark that has no end of a line in it, looked for letter by letter through `g`. Some character of the
text is not in the mark, so that the tail is not reached. -/
theorem isPrefixOf_map_spell (hr : g '\r' ∉ mark) (hn : g '\n' ∉ mark)
    (h : tail = [] ∨ ∃ c ∈ text, g c ∉ mark) :
    mark.isPrefixOf ((spell e text ++ tail).map g) = mark.isPrefixOf (text.map g) := by
  induction mark generalizing text with
  | nil => simp
  | cons m mark ih =>
    rw [List.mem_cons, not_or] at hr hn
    cases text with
    | nil =>
      obtain rfl : tail = [] := by simpa using h
      rfl
    | cons c rest =>
      by_cases hc : c = '\n'
      · subst hc
        rw [spell_newline, List.map_cons, isPrefixOf_cons_ne hn.1]
        cases e with
        | lf => exact isPrefixOf_cons_ne hn.1
        | crlf => exact isPrefixOf_cons_ne hr.1
      · rw [spell_cons hc, List.cons_append, List.map_cons, List.map_cons, List.isPrefixOf_cons_cons,
          List.isPrefixOf_cons_cons]
        by_cases hm : m = g c
        · have hrest : tail = [] ∨ ∃ c ∈ rest, g c ∉ mark := by
            rcases h with h | ⟨d, hd, hnot⟩
            · exact Or.inl h
            · rcases List.mem_cons.1 hd with rfl | hd
              · exact absurd (List.mem_cons.2 (Or.inl hm.symm)) hnot
              · exact Or.inr ⟨d, hd, fun hmem => hnot (List.mem_cons_of_mem _ hmem)⟩
          rw [ih hr.2 hn.2 hrest]
        · rw [beq_false_of_ne hm, Bool.false_and, Bool.false_and]

theorem isPrefixOf_spell_append (hr : '\r' ∉ mark) (hn : '\n' ∉ mark)
    (h : tail = [] ∨ ∃ c ∈ text, c ∉ mark) :
    mark.isPrefixOf (spell e text ++ tail) = mark.isPrefixOf text := by
  have hid := isPrefixOf_map_spell (e := e) id hr hn h
  rwa [List.map_id, List.map_id] at hid

theorem after?_spell_append (hr : '\r' ∉ mark) (hn : '\n' ∉ mark)
    (h : tail = [] ∨ ∃ c ∈ text, c ∉ mark) :
    after? mark (spell e text ++ tail) = (after? mark text).map (spell e · ++ tail) := by
  rw [after?, after?, isPrefixOf_spell_append hr hn h]
  by_cases hp : mark.isPrefixOf text = true
  · obtain ⟨after, rfl⟩ := List.isPrefixOf_iff_prefix.1 hp
    rw [if_pos hp, if_pos hp, spell_append, spell_of_not_mem hn, List.append_assoc]
    simp
  · rw [if_neg hp, if_neg hp]
    rfl

theorem after?_spell (hr : '\r' ∉ mark) (hn : '\n' ∉ mark) :
    after? mark (spell e text) = (after? mark text).map (spell e) := by
  have h : after? mark (spell e text ++ []) = (after? mark text).map (spell e · ++ []) :=
    after?_spell_append hr hn (Or.inl rfl)
  simpa only [List.append_nil] using h

end Marks

theorem bareVariable_spell : bareVariable (spell e text) = spell e (bareVariable text) := by
  rw [bareVariable, bareVariable, dropWhile_spell (by decide)]
  rw [after?_spell (by decide) (by decide)]
  cases after? "...".toList (text.dropWhile (· == '&')) with
  | none => rfl
  | some bare => rfl

theorem isVariable_spell : isVariable (spell e text) = isVariable text := by
  rw [isVariable, isVariable, bareVariable_spell]
  cases bareVariable text with
  | nil => rfl
  | cons c rest =>
    by_cases hc : c = '\n'
    · subst hc
      cases e <;> rfl
    · rw [spell_cons hc]
      rfl

/-! ## The inherit marker -/

theorem startsWithLetters_spell {letters : Text}
    (h : ∀ letter ∈ letters, sameLetter letter '\r' = false ∧ sameLetter letter '\n' = false) :
    startsWithLetters letters (spell e text) = startsWithLetters letters text := by
  induction letters generalizing text with
  | nil => simp [startsWithLetters]
  | cons letter letters ih =>
    obtain ⟨hr, hn⟩ := h letter List.mem_cons_self
    cases text with
    | nil => rfl
    | cons c rest =>
      by_cases hc : c = '\n'
      · subst hc
        rw [spell_newline]
        cases e with
        | lf => simp [LineEnd.text, startsWithLetters, hn]
        | crlf => simp [LineEnd.text, startsWithLetters, hn, hr]
      · rw [spell_cons hc, startsWithLetters, startsWithLetters,
          ih fun later hm => h later (List.mem_cons_of_mem _ hm)]

theorem hasInheritMarker_spell : hasInheritMarker (spell e text) = hasInheritMarker text := by
  have hletters : ∀ letter ∈ inheritMarker,
      sameLetter letter '\r' = false ∧ sameLetter letter '\n' = false := by
    decide
  have hend : ∀ c rest, sameLetter '\x7b' c = false →
      hasInheritMarker (c :: rest) = hasInheritMarker rest := by
    intro c rest h
    have hmark : inheritMarker = '\x7b' :: inheritMarker.tail := by decide
    rw [hasInheritMarker, hmark, startsWithLetters, h, Bool.false_and, Bool.false_or]
  have hr : sameLetter '\x7b' '\r' = false := by decide
  have hn : sameLetter '\x7b' '\n' = false := by decide
  induction text with
  | nil => rfl
  | cons c rest ih =>
    by_cases hc : c = '\n'
    · subst hc
      rw [spell_newline, hend _ rest hn]
      cases e with
      | lf => exact (hend _ _ hn).trans ih
      | crlf => exact ((hend _ _ hr).trans (hend _ _ hn)).trans ih
    · have hstart : startsWithLetters inheritMarker (spell e (c :: rest)) =
          startsWithLetters inheritMarker (c :: rest) :=
        startsWithLetters_spell hletters
      rw [spell_cons hc] at hstart
      rw [spell_cons hc, hasInheritMarker, hasInheritMarker, hstart, ih]

/-! ## Lower case -/

theorem lowerRuns_above : ∀ run ∈ lowerRuns, 10 < (run.first : Int) + run.shift := by
  decide +kernel

/-- A character other than NUL comes from its own code point only. -/
theorem toNat_of_ofNat {n : Nat} (h : Char.ofNat n = c) (hc : c ≠ '\x00') : n = c.toNat := by
  by_cases hvalid : n.isValidChar
  · have hchar : Char.ofNat n = Char.ofNatAux n hvalid := dif_pos hvalid
    exact congrArg Char.toNat (hchar.symm.trans h)
  · have hzero : Char.ofNat n = '\x00' := dif_neg hvalid
    exact absurd (h.symm.trans hzero) hc

theorem toLower_eq_self (h : 0x80 ≤ c.toNat) : c.toLower = c := by
  unfold Char.toLower
  split
  · next hupper =>
    have hhigh := UInt32.le_iff_toNat_le.1 hupper.2
    have hcode : c.toNat = c.val.toNat := rfl
    simp at hhigh
    omega
  · rfl

/-- To a letter that is the lower case of nothing above ASCII, the whole table of lower-case letters adds nothing. -/
theorem toLower_of_lowerChar {letter : Char} (hne : letter ≠ '\x00')
    (hfree : ∀ run ∈ lowerRuns, run.has ((letter.toNat : Int) - run.shift).toNat = false)
    (h : lowerChar c = letter) : c.toLower = letter := by
  unfold lowerChar at h
  split at h
  · exact h
  · next hlarge =>
    split at h
    · next run hrun =>
      have hhas := List.find?_some hrun
      have hno := hfree run (List.mem_of_find?_eq_some hrun)
      have hcode := toNat_of_ofNat h hne
      have hpos : letter.toNat ≠ 0 := by
        intro hzero
        exact hne (Char.toNat_inj.1 hzero)
      have hsame : ((letter.toNat : Int) - run.shift).toNat = c.toNat := by omega
      rw [hsame, hhas] at hno
      cases hno
    · rw [toLower_eq_self (by omega)]
      exact h

theorem toLower_ne_newline (h : c ≠ '\n') : c.toLower ≠ '\n' := by
  unfold Char.toLower
  split
  · next hupper =>
    intro heq
    have hval := congrArg (fun d : Char => d.val.toNat) heq
    have hlow := UInt32.le_iff_toNat_le.1 hupper.1
    have hhigh := UInt32.le_iff_toNat_le.1 hupper.2
    simp at hval hlow hhigh
    omega
  · exact h

theorem lowerChar_ne_newline (h : c ≠ '\n') : lowerChar c ≠ '\n' := by
  unfold lowerChar
  split
  · exact toLower_ne_newline h
  · split
    · next run hrun =>
      have habove := lowerRuns_above run (List.mem_of_find?_eq_some hrun)
      have hhas := List.find?_some hrun
      simp only [LowerRun.has, Bool.and_eq_true, decide_eq_true_eq] at hhas
      intro heq
      have hcode : _ = 10 := toNat_of_ofNat heq (by decide)
      omega
    · exact h

theorem meetsCased_cons (before : Text) :
    meetsCased (c :: before) =
      if ignorableRanges.has c then meetsCased before else casedRanges.has c := by
  by_cases h : ignorableRanges.has c = true
  · simp [meetsCased, h]
  · simp [meetsCased, h]

theorem meetsCased_newline (h : c = '\r' ∨ c = '\n') (rest : Text) : meetsCased (c :: rest) = false := by
  have hranges : ∀ d ∈ ['\r', '\n'], ignorableRanges.has d = false ∧ casedRanges.has d = false := by
    decide +kernel
  obtain ⟨hignored, hcased⟩ := hranges c (by simpa using h)
  rw [meetsCased_cons, hignored, hcased]
  rfl

theorem meetsCased_spell : meetsCased (spell e text) = meetsCased text := by
  induction text with
  | nil => rfl
  | cons c rest ih =>
    by_cases hc : c = '\n'
    · subst hc
      rw [spell_newline, meetsCased_newline (Or.inr rfl)]
      cases e with
      | lf => exact meetsCased_newline (Or.inr rfl) _
      | crlf => exact meetsCased_newline (Or.inl rfl) _
    · rw [spell_cons hc, meetsCased_cons, meetsCased_cons, ih]

/-- What one character becomes, between the given characters. -/
def lowered (before : Text) (c : Char) (rest : Text) : Text :=
  if c == 'Σ' then [if meetsCased before && !meetsCased rest then 'ς' else 'σ']
  else if c == 'İ' then ['i', Char.ofNat 0x307]
  else [lowerChar c]

theorem lowerAfter_cons (before : Text) :
    lowerAfter before (c :: rest) = lowered before c rest ++ lowerAfter (c :: before) rest := rfl

theorem newline_not_mem_lowered (h : c ≠ '\n') (before rest : Text) :
    '\n' ∉ lowered before c rest := by
  unfold lowered
  split
  · split <;> decide
  · split
    · decide
    · simpa using Ne.symm (lowerChar_ne_newline h)

theorem lowered_lineEnd (h : c = '\r' ∨ c = '\n') (before rest : Text) :
    lowered before c rest = [c] := by
  rcases h with rfl | rfl
  · rfl
  · rfl

theorem lowerAfter_spell {before before' : Text} (h : meetsCased before' = meetsCased before) :
    lowerAfter before' (spell e text) = spell e (lowerAfter before text) := by
  induction text generalizing before before' with
  | nil => rfl
  | cons c rest ih =>
    rw [lowerAfter_cons, spell_append]
    by_cases hc : c = '\n'
    · subst hc
      have hn := fun before => meetsCased_newline (Or.inr rfl : '\n' = '\r' ∨ '\n' = '\n') before
      rw [lowered_lineEnd (Or.inr rfl), spell_newline, spell_newline]
      cases e with
      | lf =>
        rw [← ih ((hn before').trans (hn before).symm)]
        rfl
      | crlf =>
        rw [← ih ((hn ('\r' :: before')).trans (hn before).symm)]
        rfl
    · have hnext : meetsCased (c :: before') = meetsCased (c :: before) := by
        rw [meetsCased_cons, meetsCased_cons, h]
      have hsame : lowered before' c (spell e rest) = lowered before c rest := by
        rw [lowered, lowered, h, meetsCased_spell]
      rw [spell_cons hc, lowerAfter_cons, ih hnext, hsame,
        spell_of_not_mem (newline_not_mem_lowered hc before rest)]

/-- Letter by letter, if the mark has no letter that depends on its place or becomes two. -/
theorem lowerAfter_eq_iff {mark : Text} (h : ∀ d ∈ ['σ', 'ς', 'i', 'İ'], d ∉ mark) {before : Text} :
    lowerAfter before text = mark ↔ text.map lowerChar = mark := by
  induction text generalizing mark before with
  | nil => rfl
  | cons c rest ih =>
    rw [lowerAfter_cons, List.map_cons]
    -- a first letter that is not in the mark makes both sides false
    have hfirst : ∀ (d : Char) (more : Text), d ∈ ['σ', 'ς', 'i', 'İ'] → d :: more ≠ mark := by
      rintro d more hd rfl
      exact h d hd List.mem_cons_self
    by_cases hsigma : c = 'Σ'
    · subst hsigma
      have hlower : lowerChar 'Σ' = 'σ' := by decide +kernel
      rw [hlower]
      refine iff_of_false ?_ (hfirst _ _ (by decide))
      rw [lowered, if_pos (beq_self_eq_true _), List.singleton_append]
      split
      · exact hfirst _ _ (by decide)
      · exact hfirst _ _ (by decide)
    · by_cases hdotted : c = 'İ'
      · subst hdotted
        have hlower : lowerChar 'İ' = 'İ' := by decide +kernel
        rw [hlower]
        exact iff_of_false (hfirst _ _ (by decide)) (hfirst _ _ (by decide))
      · have hone : lowered before c rest = [lowerChar c] := by
          simp [lowered, hsigma, hdotted]
        rw [hone, List.singleton_append]
        cases mark with
        | nil => simp
        | cons m mark =>
          have hrest : ∀ d ∈ ['σ', 'ς', 'i', 'İ'], d ∉ mark := fun d hd hm =>
            h d hd (List.mem_cons_of_mem _ hm)
          rw [List.cons.injEq, List.cons.injEq, ih hrest]

theorem lower_spell : lower (spell e text) = spell e (lower text) := lowerAfter_spell rfl

/-! ## Type names -/

theorem concat_suffix_concat {mark : Text} {m : Char} :
    mark ++ [m] <:+ text ++ [c] ↔ m = c ∧ mark <:+ text := by
  rw [← List.reverse_prefix, List.reverse_append, List.reverse_append, List.reverse_singleton,
    List.reverse_singleton, List.singleton_append, List.singleton_append, List.cons_prefix_cons,
    List.reverse_prefix]

/-- The last character of a text is also that of its spelling. -/
theorem exists_spell_concat (text : Text) (c : Char) :
    ∃ front, spell e (text ++ [c]) = front ++ [c] ∧ (c ≠ '\n' → front = spell e text) := by
  rw [spell_append]
  by_cases hc : c = '\n'
  · subst hc
    cases e with
    | lf => exact ⟨spell .lf text, rfl, fun h => absurd rfl h⟩
    | crlf => exact ⟨spell .crlf text ++ ['\r'], by simp [spell, LineEnd.text], fun h => absurd rfl h⟩
  · exact ⟨spell e text, by rw [spell_cons hc]; rfl, fun _ => rfl⟩

theorem suffix_spell {mark : Text} (hn : '\n' ∉ mark) : mark <:+ spell e text ↔ mark <:+ text := by
  induction mark using List.reverseRecOn generalizing text with
  | nil => simp
  | append_singleton mark m ih =>
    rw [List.mem_append, not_or, List.mem_singleton] at hn
    rcases List.eq_nil_or_concat text with rfl | ⟨front, c, rfl⟩
    · simp
    · obtain ⟨spelled, hspell, hfront⟩ := exists_spell_concat (e := e) front c
      rw [List.concat_eq_append, hspell, concat_suffix_concat, concat_suffix_concat]
      refine and_congr_right fun hm => ?_
      subst hm
      rw [hfront (Ne.symm hn.2), ih hn.1]

theorem isSuffixOf_spell {mark : Text} (hn : '\n' ∉ mark) :
    mark.isSuffixOf (spell e text) = mark.isSuffixOf text := by
  rw [Bool.eq_iff_iff, List.isSuffixOf_iff_suffix, List.isSuffixOf_iff_suffix, suffix_spell hn]

theorem shortName_concat (text : Text) (c : Char) :
    shortName (text ++ [c]) = if c = '\\' then [] else shortName text ++ [c] := by
  by_cases h : c = '\\'
  · simp [shortName, h]
  · simp [shortName, h]

theorem shortName_spell : shortName (spell e text) = spell e (shortName text) := by
  induction text using List.reverseRecOn with
  | nil => rfl
  | append_singleton text c ih =>
    rw [shortName_concat, spell_append]
    by_cases hc : c = '\n'
    · subst hc
      have hend : spell e ['\n'] = e.text := by simp [spell]
      rw [if_neg (by decide), spell_append, hend, ← ih]
      cases e with
      | lf =>
        rw [LineEnd.text, shortName_concat, if_neg (by decide)]
      | crlf =>
        have hsplit : spell .crlf text ++ LineEnd.crlf.text = (spell .crlf text ++ ['\r']) ++ ['\n'] := by
          simp [LineEnd.text]
        rw [hsplit, shortName_concat, if_neg (by decide), shortName_concat, if_neg (by decide)]
        simp [LineEnd.text]
    · have hsame : spell e [c] = [c] := by rw [spell_cons hc]; rfl
      rw [hsame, shortName_concat, ih]
      split
      · rfl
      · rw [spell_append, hsame]

theorem resolveAlias_spell : resolveAlias (spell e text) = spell e (resolveAlias text) := by
  have hplain : ∀ entry ∈ typeAliases, '\n' ∉ entry.1 ∧ '\n' ∉ entry.2 := by decide
  have hfind : typeAliases.find? (·.1 == spell e text) = typeAliases.find? (·.1 == text) := by
    refine List.find?_congr fun entry hentry => ?_
    rw [BEq.comm, spell_beq_mark (hplain entry hentry).1, BEq.comm]
  rw [resolveAlias, resolveAlias, hfind]
  cases hentry : typeAliases.find? (·.1 == text) with
  | none => rfl
  | some entry =>
    exact (spell_of_not_mem (hplain entry (List.mem_of_find?_eq_some hentry)).2).symm

theorem partName?_spell : partName? (spell e text) = (partName? text).map (spell e) := by
  have hsuffix : '\n' ∉ "[]".toList := by decide
  simp only [partName?, trim_spell]
  rw [dropWhile_spell (by decide), lower_spell, spell_isEmpty, isSuffixOf_spell hsuffix]
  split
  · rfl
  · split
    · exact congrArg some (spell_of_not_mem (by decide)).symm
    · rw [takeWhile_spell (by decide), shortName_spell, resolveAlias_spell]
      rfl

theorem typeNames_spell : typeNames (spell e text) = (typeNames text).map (spell e) := by
  rw [typeNames, typeNames, splitWhere_spell (by decide) (by decide), List.filterMap_map,
    List.map_filterMap]
  congr 1
  funext part
  exact partName?_spell

theorem documents_spell (documented declared : Text) :
    documents (spell e documented) (spell e declared) = documents documented declared := by
  have hmixed : '\n' ∉ "mixed".toList := by decide
  have hnull : '\n' ∉ "null".toList := by decide
  simp only [documents, typeNames_spell, contains_map_spell_mark hmixed, List.all_map]
  congr 2
  funext name
  simp only [Function.comp_apply, spell_beq_mark hnull, contains_map_spell]

end Text

end DocLint
