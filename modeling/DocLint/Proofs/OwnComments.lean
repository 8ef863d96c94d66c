import DocLint.Proofs.InheritDoc
import DocLint.Proofs.LexicalSoundness
import DocLint.Proofs.LineEnds
import Mathlib.Data.List.Forall2

/-!
# The inherit marker in a function's own comment

The comment of a function is located from the function backwards, and the inherit marker is looked for in the
last doc comment that opens before it. If the located comment is a doc comment, this is the same one, whatever
remark stands behind it (`lastDocComment_own`). Its tokens are put together again before they are searched, so
the marker is found in the text of the source, between `/**` and the first `*/` behind it.

Ignoring case is stated by the lower case of letters (`Text.SameLetter`). For a letter of the marker this
means the letter itself and its capital in ASCII, and for an i its dotted and its dotless kind as well
(`Text.sameLetter_iff`).
-/

namespace DocLint

/-! ## Ignoring case -/

namespace Text

/-- The single lower-case letter of a character. -/
def simpleLower (c : Char) : Char := if c = 'İ' then 'i' else lowerChar c

/-- The other lower-case letter that shares its capital with a letter of ASCII. -/
def smallTwin? : Char → Option Char
  | 'i' => some 'ı'
  | 's' => some 'ſ'
  | _ => none

/-- A character is a given letter of ASCII, if case is ignored: their lower-case letters are the same, or share
their capital. -/
def SameLetter (letter c : Char) : Prop :=
  simpleLower c = simpleLower letter ∨ smallTwin? (simpleLower letter) = some (simpleLower c)

/-- A text contains the letters of `mark`, if case is ignored. -/
def ContainsLetters (mark text : Text) : Prop :=
  ∃ front word back, text = front ++ word ++ back ∧ List.Forall₂ SameLetter mark word

/-- Above ASCII, nothing has a letter of the marker or the dotless i as its lower case. -/
theorem lowerRuns_marker : ∀ letter ∈ 'ı' :: inheritMarker, ∀ run ∈ lowerRuns,
    run.has ((letter.toNat : Int) - run.shift).toNat = false := by
  decide +kernel

theorem simpleLower_marker : ∀ letter ∈ inheritMarker, simpleLower letter = letter := by
  decide +kernel

theorem ne_nul_of_mem_marker : ∀ letter ∈ 'ı' :: inheritMarker, letter ≠ '\x00' := by
  decide

variable {letter c : Char}

theorem lowerChar_of_toLower (hl : letter ∈ inheritMarker) (h : c.toLower = letter) :
    lowerChar c = letter := by
  unfold lowerChar
  split
  · exact h
  · next hlarge =>
    have hascii : ∀ letter ∈ inheritMarker, letter.toNat < 0x80 := by decide
    have hsmall := hascii letter hl
    rw [toLower_eq_self (by omega)] at h
    subst h
    omega

theorem eq_dotless_of_toLower (h : c.toLower = 'ı') : c = 'ı' := by
  have hascii : ∀ n < 0x80, (Char.ofNat n).toLower ≠ 'ı' := by decide
  by_cases hsmall : c.toNat < 0x80
  · have hno := hascii c.toNat hsmall
    rw [Char.ofNat_toNat] at hno
    exact absurd h hno
  · rw [← h, toLower_eq_self (by omega)]

theorem simpleLower_cases (h : simpleLower c = letter) : c = 'İ' ∧ letter = 'i' ∨ lowerChar c = letter := by
  unfold simpleLower at h
  split at h
  · next hdotted => exact Or.inl ⟨hdotted, h.symm⟩
  · exact Or.inr h

theorem smallTwin?_marker (hl : letter ∈ inheritMarker) (h : smallTwin? letter = some c) :
    letter = 'i' ∧ c = 'ı' := by
  unfold smallTwin? at h
  split at h
  · exact ⟨rfl, (Option.some.inj h).symm⟩
  · exact absurd hl (by decide)
  · cases h

/-- Among all characters, the letters that are told from those of the marker are the right ones. -/
theorem sameLetter_iff (hl : letter ∈ inheritMarker) :
    sameLetter letter c = true ↔ SameLetter letter c := by
  rw [SameLetter, simpleLower_marker letter hl]
  simp only [sameLetter, Bool.or_eq_true, Bool.and_eq_true, beq_iff_eq]
  constructor
  · rintro ((rfl | hlower) | ⟨rfl, rfl | rfl⟩)
    · exact Or.inl (simpleLower_marker c hl)
    · have hchar := lowerChar_of_toLower hl hlower
      left
      unfold simpleLower
      split
      · next hdotted =>
        subst hdotted
        exact absurd (hlower ▸ hl) (by decide)
      · exact hchar
    · exact Or.inr (by decide +kernel)
    · exact Or.inl (by decide +kernel)
  · rintro (hlower | htwin)
    · rcases simpleLower_cases hlower with ⟨rfl, rfl⟩ | hlower
      · exact Or.inr ⟨rfl, Or.inr rfl⟩
      · have hm := List.mem_cons_of_mem 'ı' hl
        have hsame := toLower_of_lowerChar (ne_nul_of_mem_marker letter hm) (lowerRuns_marker letter hm) hlower
        exact Or.inl (Or.inr hsame)
    · obtain ⟨rfl, hdotless⟩ := smallTwin?_marker hl htwin
      rcases simpleLower_cases hdotless with ⟨-, hi⟩ | hlower
      · cases hi
      · have hm : 'ı' ∈ 'ı' :: inheritMarker := List.mem_cons_self
        have hsame := toLower_of_lowerChar (ne_nul_of_mem_marker _ hm) (lowerRuns_marker _ hm) hlower
        exact Or.inr ⟨rfl, Or.inl (eq_dotless_of_toLower hsame)⟩

theorem startsWithLetters_iff {letters text : Text} (hl : ∀ letter ∈ letters, letter ∈ inheritMarker) :
    startsWithLetters letters text = true ↔
      ∃ word back, text = word ++ back ∧ List.Forall₂ SameLetter letters word := by
  induction letters generalizing text with
  | nil => exact iff_of_true rfl ⟨[], text, rfl, .nil⟩
  | cons letter letters ih =>
    have hfirst := hl letter List.mem_cons_self
    have hletters : ∀ other ∈ letters, other ∈ inheritMarker := fun other ho =>
      hl other (List.mem_cons_of_mem _ ho)
    cases text with
    | nil =>
      refine iff_of_false nofun ?_
      rintro ⟨word, back, htext, hword⟩
      cases hword
      cases htext
    | cons c rest =>
      rw [startsWithLetters, Bool.and_eq_true, sameLetter_iff hfirst, ih hletters]
      constructor
      · rintro ⟨hc, word, back, rfl, hword⟩
        exact ⟨c :: word, back, rfl, .cons hc hword⟩
      · rintro ⟨word, back, htext, hword⟩
        cases hword with
        | cons hc hword =>
          obtain ⟨rfl, rfl⟩ := List.cons.inj htext
          exact ⟨hc, _, back, rfl, hword⟩

theorem hasInheritMarker_iff (text : Text) :
    hasInheritMarker text = true ↔ ContainsLetters inheritMarker text := by
  induction text with
  | nil =>
    refine iff_of_false nofun ?_
    rintro ⟨front, word, back, htext, hword⟩
    obtain ⟨hfront, -⟩ := List.append_eq_nil_iff.1 htext.symm
    obtain ⟨-, rfl⟩ := List.append_eq_nil_iff.1 hfront
    cases hword
  | cons c rest ih =>
    rw [hasInheritMarker, Bool.or_eq_true, startsWithLetters_iff fun _ hl => hl, ih]
    constructor
    · rintro (⟨word, back, htext, hword⟩ | ⟨front, word, back, rfl, hword⟩)
      · exact ⟨[], word, back, htext, hword⟩
      · exact ⟨c :: front, word, back, rfl, hword⟩
    · rintro ⟨front, word, back, htext, hword⟩
      cases front with
      | nil => exact Or.inl ⟨word, back, htext, hword⟩
      | cons d front =>
        obtain ⟨rfl, hrest⟩ := List.cons.inj htext
        exact Or.inr ⟨front, word, back, hrest, hword⟩

end Text

/-! ## The text of a doc comment -/

namespace Stream

variable {source : Text} {stream : Stream} {i o c : Nat} {tags : List Int}

/-- The tokens of a group are those of one piece. -/
theorem exists_docComment_of_group (h : ofSource source = .ok stream) (hg : DocGroup stream.toList o c tags) :
    ∃ front back body start, Piece.docComment body ∈ (scan source).pieces ∧
      layout (scan source).pieces = front ++ ((Piece.docComment body).tokens start front.length ++ back) ∧
      o = front.length ∧ c = front.length + body.length + 1 := by
  have hpair := (ofSource_eq_ok.1 h).2
  have hrun := lexed_of_ofSource h
  obtain ⟨opening, hopen, hkind, -⟩ := hg.opener
  obtain ⟨before, hb, -, hsettled⟩ := pair_getElem? hpair hopen
  rw [settledKind_of_isDoc (Or.inr (by rw [← hsettled, hkind]; rfl))] at hsettled
  have hdoc : before.kind.isDoc = true := by
    rw [← hsettled, hkind]
    rfl
  obtain ⟨front, back, body, start, hm, hlayout, ho, hc⟩ := exists_docComment_layout hrun.grouped hb hdoc
  have hgroup := docGroup_tokens front back start (hrun.grouped _ hm)
  rw [← hlayout] at hgroup
  obtain ⟨rfl, rfl, -⟩ := hg.unique (hgroup.of_pair hpair) (Nat.le_refl _) (Nat.le_of_lt hg.lt) ho hc
  exact ⟨front, back, body, start, hm, hlayout, rfl, rfl⟩

/-- In the source, a doc comment goes from its opening to the first `*/` behind it. -/
theorem docGroup_text (h : ofSource source = .ok stream) (hg : DocGroup stream.toList o c tags) :
    ∃ body, stream.textBetween o c = "/**".toList ++ body ∧ ¬ "*/".toList <:+: body ∧
      stream.textFrom c = "*/".toList ++ stream.textFrom (c + 1) := by
  obtain ⟨front, back, body, start, hm, hlayout, rfl, rfl⟩ := exists_docComment_of_group h hg
  have hbefore : stream.textBefore front.length = front.flatMap (·.content) := by
    rw [textBefore_eq_layout h, hlayout, List.take_left]
  have hupto : stream.textBefore (front.length + body.length + 1) =
      front.flatMap (·.content) ++ ("/**".toList ++ body.flatMap (·.text)) := by
    rw [textBefore_eq_layout h, hlayout, Piece.tokens, take_group (placeAll_length _ body),
      List.flatMap_append, List.flatMap_cons, flatMap_content (placeAll _ body), placeAll_lexeme]
    rfl
  refine ⟨body.flatMap (·.text), ?_, ?_, ?_⟩
  · have htext := textBefore_append_textBetween stream (Nat.le_of_lt hg.lt)
    rw [hbefore, hupto] at htext
    exact List.append_cancel_left htext
  · obtain ⟨_, hformed⟩ := (lexed_of_ofSource h).exists_formed _ hm
    exact hformed.2
  · obtain ⟨closing, hclose, hckind, -⟩ := hg.closer
    rw [Array.getElem?_toList] at hclose
    have hform := form_at h hclose
    rw [hckind] at hform
    rw [textFrom_eq hclose, hform]

/-! ## A function's own doc comment -/

/-- If the comment of a function is a doc comment, it is the last one that opens before the function. -/
theorem lastDocComment_own (hi : i ≤ stream.size) (hloc : stream.locateComment i = some c)
    (hg : DocGroup stream.toList o c tags) : LastDocComment stream i o c := by
  obtain ⟨last, hle, hlt, -, -⟩ := locateComment_between hi hloc
  have hoc := hg.lt
  refine ⟨⟨tags, hg⟩, by omega, fun {o' c' tags'} hg' ho' => ?_⟩
  have hoc' := hg'.lt
  have hle' := opener_le_of_locateComment hi hloc hg' ho'
  by_contra hlater
  -- an opening inside the comment would be that of the comment
  obtain ⟨rfl, -, -⟩ := hg'.unique hg (Nat.le_refl _) (Nat.le_of_lt hoc') (by omega) hle'
  omega

theorem Sound.inheritsDoc_own (hs : stream.Sound) (hi : i ≤ stream.size)
    (hloc : stream.locateComment i = some c) (hg : DocGroup stream.toList o c tags) :
    stream.inheritsDoc i = .ok (hasInheritMarker (stream.textBetween o c)) := by
  have hown := lastDocComment_own hi hloc hg
  rcases hs.inheritsDoc_cases hi with ⟨o', c', hl, h⟩ | ⟨hnone, -⟩
  · obtain ⟨rfl, rfl⟩ := hown.unique hl
    exact h
  · exact absurd hown (hnone o c)

/-- A function whose comment is a doc comment inherits it exactly if that comment, from its `/**` up to the
first `*/` behind it, contains the inherit marker in any mix of cases. The two searches for its ends find the
ends to which its tokens are linked. -/
theorem own_comment_inherits_iff (h : ofSource source = .ok stream) (hi : i < stream.size)
    (hloc : stream.locateComment i = some c) {closing : Token} (hc : stream[c]? = some closing)
    (hk : closing.kind = .docClose) :
    ∃ (o : Nat) (body : Text),
      closing.comment.opener = some (o : Int) ∧
      stream.findPrevious { kinds := [.docOpen] } ((i : Int) - 1) = some o ∧
      stream.findNext { kinds := [.docClose] } o = some c ∧
      source = stream.textBefore o ++ "/**".toList ++ body ++ "*/".toList ++ stream.textFrom (c + 1) ∧
      ¬ "*/".toList <:+: body ∧
      (stream.inheritsDoc i = .ok true ↔ Text.ContainsLetters inheritMarker ("/**".toList ++ body)) ∧
      (stream.inheritsDoc i = .ok false ↔ ¬ Text.ContainsLetters inheritMarker ("/**".toList ++ body)) := by
  have hs := sound h
  have hsize : i ≤ stream.size := Nat.le_of_lt hi
  obtain ⟨o, tags, hg⟩ : ∃ o tags, DocGroup stream.toList o c tags := by
    obtain ⟨o, tags, hat⟩ := hs.exists_commentAt hloc
    cases hat with
    | plain ht kind =>
      obtain rfl := Option.some.inj (hc.symm.trans ht)
      rw [hk] at kind
      cases kind
    | doc hg => exact ⟨o, tags, hg⟩
  obtain ⟨body, hbody, hfirst, hend⟩ := docGroup_text h hg
  have hown := lastDocComment_own hsize hloc hg
  have hinherits := hs.inheritsDoc_own hsize hloc hg
  rw [hbody] at hinherits
  have hmarker := Text.hasInheritMarker_iff ("/**".toList ++ body)
  refine ⟨o, body, ?_, hs.findPrevious_docOpen hsize hown, hg.findNext_docClose, ?_, hfirst, ?_, ?_⟩
  · obtain ⟨token, ht, -, hlink, -⟩ := hg.closer
    rw [Array.getElem?_toList] at ht
    obtain rfl := Option.some.inj (hc.symm.trans ht)
    rw [hlink]
  · have hbefore := textBefore_append_textBetween stream (Nat.le_of_lt hg.lt)
    calc source = stream.textBefore c ++ stream.textFrom c := (textBefore_append_textFrom h c).symm
      _ = stream.textBefore o ++ ("/**".toList ++ body) ++ ("*/".toList ++ stream.textFrom (c + 1)) := by
        rw [← hbefore, hbody, hend]
      _ = _ := by simp only [List.append_assoc]
  · rw [hinherits, ← hmarker, Except.ok.injEq]
  · rw [hinherits, ← hmarker, Except.ok.injEq, Bool.not_eq_true]

/-- A doc comment with the marker in mixed case, a remark and a modifier before the function. -/
theorem own_comment_inherits_iff_remark :
    ∃ stream closing,
      ofSource "<?php\n/**\n * a \x7b@İnheritDoc\x7d\n */ // b\nfinal function c() \x7b\x7d".toList = .ok stream ∧
      16 < stream.size ∧ stream.locateComment (16 : Nat) = some 10 ∧ stream[10]? = some closing ∧
      closing.kind = .docClose ∧ stream.inheritsDoc (16 : Nat) = .ok true ∧
      ∃ (o : Nat) (body : Text), closing.comment.opener = some (o : Int) ∧
        "<?php\n/**\n * a \x7b@İnheritDoc\x7d\n */ // b\nfinal function c() \x7b\x7d".toList =
          stream.textBefore o ++ "/**".toList ++ body ++ "*/".toList ++ stream.textFrom 11 ∧
        Text.ContainsLetters inheritMarker ("/**".toList ++ body) := by
  have hrun : (ofSource
      "<?php\n/**\n * a \x7b@İnheritDoc\x7d\n */ // b\nfinal function c() \x7b\x7d".toList).toOption.any
      (fun stream => decide (16 < stream.size) && stream.locateComment (16 : Nat) == some 10 &&
        stream[10]?.any (·.kind == .docClose) &&
        (stream.inheritsDoc (16 : Nat)).toOption == some true) = true := by
    decide +kernel
  obtain ⟨stream, h, hat⟩ := exists_eq_ok_of_any hrun
  simp only [Bool.and_eq_true, beq_iff_eq, decide_eq_true_eq, Option.any_eq_true] at hat
  obtain ⟨⟨⟨hi, hloc⟩, closing, hc, hk⟩, htrue⟩ := hat
  have hinherits := eq_ok_of_toOption htrue
  obtain ⟨o, body, hlink, -, -, hsource, -, hiff, -⟩ := own_comment_inherits_iff h hi hloc hc hk
  exact ⟨stream, closing, h, hi, hloc, hc, hk, hinherits, o, body, hlink, hsource, hiff.1 hinherits⟩

end Stream

end DocLint
