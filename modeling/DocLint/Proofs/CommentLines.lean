import DocLint.Proofs.InheritDoc
import DocLint.Proofs.LexicalSoundness

/-!
# Lines of doc comments

A line of a doc comment ends with a gap of its own: a line feed, a carriage return and a line feed, or a carriage
return alone. Behind each of them a star or a tag may stand again. The number of a line counts line feeds and
nothing else, so two tokens of a comment have the same number where every line between them ends with a carriage
return alone (`line_eq_iff`). What is read behind a tag is the first text with the number of the tag's line
(`tagContent_eq_some_iff`): behind such a return, it is the text of another line.
-/

namespace DocLint.Stream

variable {source : Text} {stream : Stream} {o c : Nat} {tags : List Int}

/-- At an index is a gap of a doc comment, written like this. -/
def GapAt (stream : Stream) (text : Text) (i : Nat) : Prop :=
  ∃ token, stream[i]? = some token ∧ token.kind = .docGap ∧ token.content = text

/-- At an index, a line of a doc comment ends. -/
def EndsLineAt (stream : Stream) (i : Nat) : Prop :=
  stream.GapAt ['\n'] i ∨ stream.GapAt ['\r', '\n'] i ∨ stream.GapAt ['\r'] i

/-- What starts a doc comment of a source starts a group. -/
theorem docGroup_at (h : ofSource source = .ok stream) {token : Token} (ho : stream[o]? = some token)
    (hk : token.kind = .docOpen) (hc : token.comment.closer = some (c : Int)) (ht : token.tags = tags) :
    DocGroup stream.toList o c tags := by
  obtain ⟨c', tags', hg⟩ := (sound h).group_of_docOpen (accepts_kinds.2 ⟨token, ho, by simp [hk]⟩)
  obtain ⟨opener, hopener, -, hlink, rfl⟩ := hg.opener
  rw [Array.getElem?_toList] at hopener
  obtain rfl := Option.some.inj (ho.symm.trans hopener)
  rw [hlink] at hc
  obtain rfl : c' = c := Int.ofNat_inj.1 (Option.some.inj hc)
  rwa [ht] at hg

/-- A tag of a doc comment is a token of it. -/
theorem exists_tag (hg : DocGroup stream.toList o c tags) {t : Nat} (ht : (t : Int) ∈ tags) :
    ∃ tag, o < t ∧ t < c ∧ stream[t]? = some tag ∧ tag.kind = .docTag := by
  obtain ⟨_, tag, hindex, hot, htc, htag, hk⟩ := (hg.mem_tags t).1 ht
  obtain rfl := Int.ofNat_inj.1 hindex
  rw [Array.getElem?_toList] at htag
  exact ⟨tag, hot, htc, htag, hk⟩

/-! ## Line numbers -/

theorem mem_textBetween {first last : Nat} {d : Char} :
    d ∈ stream.textBetween first last ↔
      ∃ (i : Nat) (token : Token), first ≤ i ∧ i < last ∧ stream[i]? = some token ∧ d ∈ token.content := by
  rw [textBetween_eq_extract, List.mem_flatMap]
  constructor
  · rintro ⟨token, ht, hd⟩
    obtain ⟨n, hn⟩ := Array.mem_iff_getElem?.1 (Array.mem_def.2 ht)
    rw [Array.getElem?_extract] at hn
    split at hn
    · exact ⟨first + n, token, by omega, by omega, hn, hd⟩
    · cases hn
  · rintro ⟨i, token, hfirst, hlast, hi, hd⟩
    have hlt := lt_size hi
    refine ⟨token, Array.mem_def.1 (Array.mem_iff_getElem?.2 ⟨i - first, ?_⟩), hd⟩
    rw [Array.getElem?_extract, if_pos (by omega), show first + (i - first) = i by omega, hi]

/-- Two tokens have the same line number if there is no line feed from the one to the other. -/
theorem line_eq_iff_feed (h : ofSource source = .ok stream) {a b : Nat} {one other : Token} (hab : a ≤ b)
    (ha : stream[a]? = some one) (hb : stream[b]? = some other) :
    one.line = other.line ↔ '\n' ∉ stream.textBetween a b := by
  have hone : one.line = 1 + (stream.textBefore a).count '\n' := (place_eq h ha).1
  have hother : other.line = 1 + (stream.textBefore b).count '\n' := (place_eq h hb).1
  rw [← textBefore_append_textBetween stream hab, List.count_append] at hother
  rw [← List.count_eq_zero]
  omega

/-- In a doc comment, line feeds stand in gaps that end lines. -/
theorem feed_mem_iff (h : ofSource source = .ok stream) (hg : DocGroup stream.toList o c tags) {i : Nat}
    {token : Token} (ho : o ≤ i) (hc : i ≤ c) (hi : stream[i]? = some token) :
    '\n' ∈ token.content ↔ stream.GapAt ['\n'] i ∨ stream.GapAt ['\r', '\n'] i := by
  have hform := form_at h hi
  constructor
  · intro hfeed
    have hnot : ∀ {text : Text}, '\n' ∉ text → token.content ≠ text := by
      rintro text hno rfl
      exact hno hfeed
    rcases hg.kind_at ho hc hi with ⟨-, hk⟩ | ⟨-, -, hinner⟩ | ⟨-, hk⟩
    · rw [hk] at hform
      exact absurd hform (hnot (by decide))
    · cases hk : token.kind with
      | docGap =>
        rw [hk] at hform
        rcases hform with htext | ⟨d, htext, -⟩ | hblank
        · exact Or.inr ⟨token, hi, hk, htext⟩
        · rw [htext, List.mem_singleton] at hfeed
          rw [← hfeed] at htext
          exact Or.inl ⟨token, hi, hk, htext⟩
        · have hno := hblank '\n' hfeed
          cases hno
      | docStar =>
        rw [hk] at hform
        exact absurd hform (hnot (by decide))
      | docTag =>
        rw [hk] at hform
        have hno := hform.noGap '\n' hfeed
        cases hno
      | docText =>
        rw [hk] at hform
        have hno := hform.newline '\n' hfeed
        cases hno
      | _ =>
        rw [hk] at hinner
        cases hinner
    · rw [hk] at hform
      exact absurd hform (hnot (by decide))
  · rintro (⟨gap, hgap, -, htext⟩ | ⟨gap, hgap, -, htext⟩)
    · obtain rfl := Option.some.inj (hi.symm.trans hgap)
      simp [htext]
    · obtain rfl := Option.some.inj (hi.symm.trans hgap)
      simp [htext]

/-- Two tokens of a doc comment have the same line number if no line ends between them but with a carriage
return alone. -/
theorem line_eq_iff (h : ofSource source = .ok stream) (hg : DocGroup stream.toList o c tags) {a b : Nat}
    {one other : Token} (ho : o ≤ a) (hab : a ≤ b) (hc : b ≤ c) (ha : stream[a]? = some one)
    (hb : stream[b]? = some other) :
    one.line = other.line ↔ ∀ i, a ≤ i → i < b → stream.EndsLineAt i → stream.GapAt ['\r'] i := by
  rw [line_eq_iff_feed h hab ha hb]
  constructor
  · intro hnone i hai hib hends
    -- another end of a line would bring a line feed
    have hreturn : ∀ text, '\n' ∈ text → ¬ stream.GapAt text i := by
      rintro text hfeed ⟨gap, hgap, -, rfl⟩
      exact hnone (mem_textBetween.2 ⟨i, gap, hai, hib, hgap, hfeed⟩)
    rcases hends with hfeed | hfeed | halone
    · exact absurd hfeed (hreturn _ (by simp))
    · exact absurd hfeed (hreturn _ (by simp))
    · exact halone
  · intro halone hmem
    obtain ⟨i, gap, hai, hib, hgap, hfeed⟩ := mem_textBetween.1 hmem
    have hends : stream.EndsLineAt i :=
      ((feed_mem_iff h hg (by omega) (by omega) hgap).1 hfeed).imp_right Or.inl
    obtain ⟨same, hsame, -, htext⟩ := halone i hai hib hends
    obtain rfl := Option.some.inj (hgap.symm.trans hsame)
    simp [htext] at hfeed

/-! ## Texts behind tags -/

/-- At `s` is the first text behind the tag `t` of a comment that ends at `c`. -/
structure FirstText (stream : Stream) (t c s : Nat) (text : Text) : Prop where
  behind : t < s
  before : s < c
  found : ∃ token, stream[s]? = some token ∧ token.kind = .docText ∧ token.content = text
  first : ∀ (i : Nat) (token : Token), t < i → i < s → stream[i]? = some token → token.kind ≠ .docText

theorem accepts_docText {i : Nat} :
    stream.accepts { kinds := [.docText] } i = true ↔
      ∃ token, stream[i]? = some token ∧ token.kind = .docText := by
  rw [accepts_kinds]
  simp

theorem findNext_docText_iff {t c s : Nat} {tag : Token} (ht : stream[t]? = some tag) (hk : tag.kind = .docTag) :
    stream.findNext { kinds := [.docText] } t (some (c : Int)) = some s ↔
      ∃ text, FirstText stream t c s text := by
  have hrefused : ∀ i : Nat, stream.accepts { kinds := [.docText] } i = false ↔
      ∀ token, stream[i]? = some token → token.kind ≠ .docText := by
    intro i
    rw [← Bool.not_eq_true, accepts_docText]
    push Not
    rfl
  rw [findNext_eq_some]
  constructor
  · rintro ⟨-, hle, hlt, -, hfound, hfirst⟩
    obtain ⟨token, hs, htext⟩ := accepts_docText.1 hfound
    have hne : t ≠ s := by
      rintro rfl
      obtain rfl := Option.some.inj (ht.symm.trans hs)
      rw [hk] at htext
      cases htext
    refine ⟨token.content, by omega, by simpa using hlt, ⟨token, hs, htext, rfl⟩, fun i other hti his => ?_⟩
    exact (hrefused i).1 (hfirst i (by omega) his) other
  · rintro ⟨text, hbehind, hbefore, ⟨token, hs, htext, -⟩, hfirst⟩
    refine ⟨by omega, by omega, by simpa using hbefore, lt_size hs, accepts_docText.2 ⟨token, hs, htext⟩,
      fun i hti his => (hrefused i).2 fun other hother => ?_⟩
    rcases Nat.eq_or_lt_of_le (Int.ofNat_le.1 hti) with rfl | hlt
    · obtain rfl := Option.some.inj (ht.symm.trans hother)
      rw [hk]
      decide
    · exact hfirst i other hlt his hother

/-- What is read behind a tag: the first text there is, if no line feed comes before it. -/
theorem tagContent_eq_some_iff_feed (h : ofSource source = .ok stream) {t : Nat} {tag : Token}
    (ht : stream[t]? = some tag) (hk : tag.kind = .docTag) {text : Text} :
    stream.tagContent t c = some text ↔
      ∃ s, FirstText stream t c s text ∧ '\n' ∉ stream.textBetween t s := by
  simp only [tagContent, token?_at ht, Option.bind_eq_bind, Option.bind_eq_some_iff, guard,
    Option.some.injEq, Option.pure_def]
  constructor
  · rintro ⟨s, hfind, token, hs, _, rfl, _, hguard, rfl⟩
    obtain ⟨text, hfirst⟩ := (findNext_docText_iff ht hk).1 hfind
    obtain ⟨found, hfound, -, rfl⟩ := hfirst.found
    obtain rfl := Option.some.inj (hs.symm.trans hfound)
    have hsame : token.line = tag.line := by
      by_contra hne
      rw [if_neg (by simpa using hne)] at hguard
      cases hguard
    exact ⟨s, hfirst, (line_eq_iff_feed h (Nat.le_of_lt hfirst.behind) ht hs).1 hsame.symm⟩
  · rintro ⟨s, hfirst, hfeed⟩
    obtain ⟨token, hs, -, rfl⟩ := hfirst.found
    have hsame := (line_eq_iff_feed h (Nat.le_of_lt hfirst.behind) ht hs).2 hfeed
    exact ⟨s, (findNext_docText_iff ht hk).2 ⟨_, hfirst⟩, token, hs, tag, rfl, (),
      by rw [if_pos (by simpa using hsame.symm)], rfl⟩

/-- In a doc comment: if no line ends before the text but with a carriage return alone. -/
theorem tagContent_eq_some_iff (h : ofSource source = .ok stream) (hg : DocGroup stream.toList o c tags) {t : Nat}
    (ht : (t : Int) ∈ tags) {text : Text} :
    stream.tagContent t c = some text ↔
      ∃ s, FirstText stream t c s text ∧
        ∀ i, t ≤ i → i < s → stream.EndsLineAt i → stream.GapAt ['\r'] i := by
  obtain ⟨tag, hot, -, htag, hk⟩ := exists_tag hg ht
  rw [tagContent_eq_some_iff_feed h htag hk]
  refine exists_congr fun s => and_congr_right fun hfirst => ?_
  obtain ⟨token, hs, -, -⟩ := hfirst.found
  have hbehind := Nat.le_of_lt hfirst.behind
  rw [← line_eq_iff_feed h hbehind htag hs]
  exact line_eq_iff h hg (Nat.le_of_lt hot) hbehind (Nat.le_of_lt hfirst.before) htag hs

/-- The lines of a doc comment and their numbers.

* Two tokens have the same line number if every line that ends between them ends with a carriage return alone.
* So line numbers and ends of lines tell the same tokens apart, unless lines end between two tokens and all of them
  with a carriage return alone.
* What is read behind a tag is the first text there is, if no line ends before it but in this way. -/
theorem doc_lines_numbered (h : ofSource source = .ok stream) (hg : DocGroup stream.toList o c tags) :
    (∀ (a b : Nat) (one other : Token), o ≤ a → a < b → b ≤ c → stream[a]? = some one → stream[b]? = some other →
      (one.line = other.line ↔ ∀ i, a ≤ i → i < b → stream.EndsLineAt i → stream.GapAt ['\r'] i) ∧
      ((one.line = other.line ↔ ∀ i, a ≤ i → i < b → ¬ stream.EndsLineAt i) ↔
        ((∃ i, a ≤ i ∧ i < b ∧ stream.EndsLineAt i) →
          ∃ i, a ≤ i ∧ i < b ∧ stream.EndsLineAt i ∧ ¬ stream.GapAt ['\r'] i))) ∧
    ∀ t : Nat, (t : Int) ∈ tags → ∀ text, stream.tagContent t c = some text ↔
      ∃ s, FirstText stream t c s text ∧
        ∀ i, t ≤ i → i < s → stream.EndsLineAt i → stream.GapAt ['\r'] i := by
  refine ⟨fun a b one other ho hab hc ha hb => ?_, fun t ht text => tagContent_eq_some_iff h hg ht⟩
  have hline := line_eq_iff h hg ho (Nat.le_of_lt hab) hc ha hb
  refine ⟨hline, ?_⟩
  rw [hline]
  constructor
  · rintro hagree ⟨i, hai, hib, hends⟩
    by_contra hno
    push Not at hno
    exact hagree.1 hno i hai hib hends
  · intro hother
    constructor
    · intro halone i hai hib hends
      obtain ⟨j, haj, hjb, hjends, hnot⟩ := hother ⟨i, hai, hib, hends⟩
      exact hnot (halone j haj hjb hjends)
    · intro hnone i hai hib hends
      exact absurd hends (hnone i hai hib)

/-- A comment of three lines: a line feed ends the first, and a carriage return alone the second. Its two tags have
different line numbers, and what is read behind the second tag is the text of the third line. -/
theorem doc_lines_numbered_three_lines :
    ∃ stream, ofSource "<?php /** @a b\n * @c\r d */".toList = .ok stream ∧
      DocGroup stream.toList 2 16 [4, 11] ∧
      (∃ one other, stream[4]? = some one ∧ stream[11]? = some other ∧ one.line ≠ other.line) ∧
      ∃ s, FirstText stream 11 16 s "d".toList ∧ stream.EndsLineAt 12 ∧
        ∀ i, 11 ≤ i → i < s → stream.EndsLineAt i → stream.GapAt ['\r'] i := by
  have hrun : (ofSource "<?php /** @a b\n * @c\r d */".toList).toOption.any (fun stream =>
      stream[2]?.any (fun token => token.kind = .docOpen ∧ token.comment.closer = some 16 ∧ token.tags = [4, 11]) &&
      stream[4]?.isSome && stream[11]?.isSome &&
      stream[7]?.any (fun token => token.kind = .docGap ∧ token.content = ['\n']) &&
      stream[12]?.any (fun token => token.kind = .docGap ∧ token.content = ['\r']) &&
      (stream.tagContent 11 16 == some "d".toList)) = true := by decide +kernel
  obtain ⟨stream, h, hat⟩ := exists_eq_ok_of_any hrun
  simp only [Bool.and_eq_true, Option.any_eq_true, decide_eq_true_eq, beq_iff_eq, Option.isSome_iff_exists] at hat
  obtain ⟨⟨⟨⟨⟨⟨opener, hopen, hk, hcloser, htags⟩, one, hone⟩, other, hother⟩, feed⟩, alone⟩, hread⟩ := hat
  have hg : DocGroup stream.toList 2 16 [4, 11] := docGroup_at h hopen hk hcloser htags
  obtain ⟨hlines, hcontent⟩ := doc_lines_numbered h hg
  refine ⟨stream, h, hg, ⟨one, other, hone, hother, fun heq => ?_⟩, ?_⟩
  · have hreturn := (hlines 4 11 one other (by decide) (by decide) (by decide) hone hother).1.1 heq 7
      (by decide) (by decide) (Or.inl feed)
    obtain ⟨gap, hgap, -, htext⟩ := hreturn
    obtain ⟨same, hsame, -, hfeed⟩ := feed
    obtain rfl := Option.some.inj (hgap.symm.trans hsame)
    rw [htext] at hfeed
    cases hfeed
  · obtain ⟨s, hfirst, halone⟩ := (hcontent 11 (by decide) _).1 hread
    exact ⟨s, hfirst, Or.inr (Or.inr alone), halone⟩

/-- A carriage return alone ends the line of a tag, but the text of the next line has the same line number, and is
read behind the tag. -/
theorem return_alone_keeps_line_number :
    ∃ stream, ofSource "<?php\n/** @see\r * b */\nfunction f() \x7b\x7d".toList = .ok stream ∧
      DocGroup stream.toList 2 11 [4] ∧ stream.EndsLineAt 5 ∧
      (∃ one other, stream[4]? = some one ∧ stream[9]? = some other ∧ one.line = other.line) ∧
      stream.tagContent 4 11 = some "b".toList := by
  have hrun : (ofSource "<?php\n/** @see\r * b */\nfunction f() \x7b\x7d".toList).toOption.any (fun stream =>
      stream[2]?.any (fun token => token.kind = .docOpen ∧ token.comment.closer = some 11 ∧ token.tags = [4]) &&
      stream[5]?.any (fun token => token.kind = .docGap ∧ token.content = ['\r']) &&
      stream[4]?.any (fun one => stream[9]?.any fun other => one.line = other.line) &&
      (stream.tagContent 4 11 == some "b".toList)) = true := by decide +kernel
  obtain ⟨stream, h, hat⟩ := exists_eq_ok_of_any hrun
  simp only [Bool.and_eq_true, Option.any_eq_true, decide_eq_true_eq, beq_iff_eq] at hat
  obtain ⟨⟨⟨⟨opener, hopen, hk, hcloser, htags⟩, alone⟩, one, hone, other, hother, hline⟩, hread⟩ := hat
  have hg : DocGroup stream.toList 2 11 [4] := docGroup_at h hopen hk hcloser htags
  exact ⟨stream, h, hg, Or.inr (Or.inr alone), ⟨one, other, hone, hother, hline⟩, hread⟩

end DocLint.Stream
