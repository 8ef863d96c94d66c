import DocLint.Proofs.Checks
import DocLint.Proofs.SoundStreams

/-!
# Inherited comments

A function is taken to inherit its comment if the last doc comment that opens before it has the inherit
marker (`Sound.inheritsDoc_eq_true`). The comment of a function is looked for in another way: it is the one
right before it, with white space, modifiers and at most one remark in between (`locateComment_between`).

The two ways part at a plain comment. It has no marker, but a doc comment somewhere before it may have one,
and then the function is not checked, whatever that doc comment is about (`plain_comment_exempt_iff`).
-/

namespace DocLint

/-! ## What stands between a function and its comment -/

theorem betweenKinds_contains (kind : Kind) :
    betweenKinds.contains kind = (kind == .gap || kind.isModifier) := by
  cases kind <;> rfl

namespace Stream

variable {stream : Stream} {i : Nat}

/-- The last token before an index that is neither white space nor a modifier. -/
theorem lastBefore_eq_some (hi : i ≤ stream.size) {last : Nat} (h : stream.lastBefore i = some last) :
    last < i ∧ ∀ (j : Nat) (token : Token), last < j → j < i → stream[j]? = some token →
      token.kind = .gap ∨ token.kind.isModifier = true := by
  obtain ⟨hlt, -, hbetween⟩ := (findPrevious_before hi).1 h
  refine ⟨hlt, fun j token hj hji ht => ?_⟩
  have hno := hbetween j hj hji
  rw [accepts, ht] at hno
  have hin : betweenKinds.contains token.kind = true := by simpa [Query.accepts] using hno
  rw [betweenKinds_contains] at hin
  simpa using hin

/-- A remark is a plain comment, and what it is about stands before it. -/
theorem remarkTarget?_eq_some {index target : Nat} (h : stream.remarkTarget? index = some target) :
    (∃ token, stream[index]? = some token ∧ token.kind = .comment) ∧
      stream.lastBefore index = some target := by
  simp only [remarkTarget?, Option.bind_eq_bind, Option.bind_eq_some_iff, Option.pure_def,
    Option.some.injEq] at h
  obtain ⟨token, ht, _, hk, earlier, hl, _, -, _, -, rfl⟩ := h
  refine ⟨⟨token, ht, ?_⟩, hl⟩
  simpa [guard] using hk

/-- Between a function and its comment there is nothing but white space, modifiers and at most one
remark. -/
theorem locateComment_between (hi : i ≤ stream.size) {p : Nat} (h : stream.locateComment i = some p) :
    ∃ last, p ≤ last ∧ last < i ∧
      (p ≠ last → ∃ token, stream[last]? = some token ∧ token.kind = .comment) ∧
      ∀ (j : Nat) (token : Token), p < j → j < i → j ≠ last → stream[j]? = some token →
        token.kind = .gap ∨ token.kind.isModifier = true := by
  simp only [locateComment, Option.bind_eq_bind, Option.bind_eq_some_iff, Option.pure_def,
    Option.some.injEq] at h
  obtain ⟨last, hlast, token, ht, _, -, rfl⟩ := h
  obtain ⟨hlt, hafter⟩ := lastBefore_eq_some hi hlast
  cases htarget : stream.remarkTarget? last with
  | none =>
    refine ⟨last, Nat.le_refl _, hlt, fun hne => absurd rfl hne, ?_⟩
    intro j token hj hji _ htok
    exact hafter j token hj hji htok
  | some target =>
    obtain ⟨hremark, hbefore⟩ := remarkTarget?_eq_some htarget
    obtain ⟨hlt', hafter'⟩ := lastBefore_eq_some (by omega) hbefore
    refine ⟨last, Nat.le_of_lt hlt', hlt, fun _ => hremark, ?_⟩
    intro j token hj hji hne htok
    rcases Nat.lt_or_ge j last with hjl | hjl
    · exact hafter' j token hj hjl htok
    · exact hafter j token (by omega) hji htok

end Stream

/-! ## The last doc comment -/

/-- The doc comment from `o` to `c` is the last one that opens before the index `i`. -/
structure LastDocComment (stream : Stream) (i o c : Nat) : Prop where
  group : ∃ tags, DocGroup stream.toList o c tags
  before : o < i
  last : ∀ {o' c' : Nat} {tags : List Int}, DocGroup stream.toList o' c' tags → o' < i → o' ≤ o

theorem LastDocComment.unique {stream : Stream} {i o c o' c' : Nat}
    (h : LastDocComment stream i o c) (h' : LastDocComment stream i o' c') : o = o' ∧ c = c' := by
  obtain ⟨tags, hg⟩ := h.group
  obtain ⟨tags', hg'⟩ := h'.group
  have hle := h.last hg' h'.before
  have hle' := h'.last hg h.before
  obtain rfl : o = o' := by omega
  have hsame := hg.unique hg' (Nat.le_refl o) (Nat.le_of_lt hg.lt) (Nat.le_refl o) (Nat.le_of_lt hg'.lt)
  exact ⟨rfl, hsame.2.1⟩

namespace DocGroup

variable {stream : Stream} {o c : Nat} {tags : List Int}

/-- From its opening on, the first closing is that of the group itself. -/
theorem findNext_docClose (h : DocGroup stream.toList o c tags) :
    stream.findNext { kinds := [.docClose] } o = some c := by
  obtain ⟨last, hlast, hk, -⟩ := h.closer
  rw [Array.getElem?_toList] at hlast
  have hlt := Stream.lt_size hlast
  have ho := h.lt
  refine Stream.findNext_eq_some.2 ⟨by omega, by omega, by simpa using hlt, hlt,
    Stream.accepts_kinds.2 ⟨last, hlast, by simp [hk]⟩, fun j hj hjc => ?_⟩
  by_contra hacc
  obtain ⟨token, ht, hkind⟩ := Stream.accepts_kinds.1 (by simpa using hacc)
  have hclose : token.kind = .docClose := by simpa using hkind
  rcases h.kind_at (by omega) (Nat.le_of_lt hjc) ht with ⟨-, hk'⟩ | ⟨-, -, hk'⟩ | ⟨heq, -⟩
  · rw [hclose] at hk'
    cases hk'
  · rw [hclose] at hk'
    cases hk'
  · omega

theorem accepts_docOpen (h : DocGroup stream.toList o c tags) :
    stream.accepts { kinds := [.docOpen] } o = true := by
  obtain ⟨token, ht, hk, -⟩ := h.opener
  rw [Array.getElem?_toList] at ht
  exact Stream.accepts_kinds.2 ⟨token, ht, by simp [hk]⟩

end DocGroup

namespace Stream

variable {stream : Stream} {i : Nat}

/-- An opening of a doc comment opens a group. -/
theorem Sound.group_of_docOpen (hs : stream.Sound) {o : Nat}
    (h : stream.accepts { kinds := [.docOpen] } o = true) :
    ∃ c tags, DocGroup stream.toList o c tags := by
  obtain ⟨token, ht, hkind⟩ := accepts_kinds.1 h
  have hopen : token.kind = .docOpen := by simpa using hkind
  obtain ⟨o', c, tags, hg, ho, hc⟩ := hs.group ht (by rw [hopen]; rfl)
  rcases hg.kind_at ho hc ht with ⟨rfl, -⟩ | ⟨-, -, hk⟩ | ⟨-, hk⟩
  · exact ⟨c, tags, hg⟩
  · rw [hopen] at hk
    cases hk
  · rw [hopen] at hk
    cases hk

/-- The last doc comment is the one that is found by its opening. -/
theorem Sound.findPrevious_docOpen (hs : stream.Sound) (hi : i ≤ stream.size) {o c : Nat}
    (hl : LastDocComment stream i o c) :
    stream.findPrevious { kinds := [.docOpen] } ((i : Int) - 1) = some o := by
  obtain ⟨tags, hg⟩ := hl.group
  refine (findPrevious_before hi).2 ⟨hl.before, hg.accepts_docOpen, fun j hj hji => ?_⟩
  by_contra hacc
  obtain ⟨c', tags', hg'⟩ := hs.group_of_docOpen (by simpa using hacc)
  have := hl.last hg' hji
  omega

/-- Either there is a last doc comment and its text decides, or there is none and nothing is inherited. -/
theorem Sound.inheritsDoc_cases (hs : stream.Sound) (hi : i ≤ stream.size) :
    (∃ o c, LastDocComment stream i o c ∧
      stream.inheritsDoc i = .ok (hasInheritMarker (stream.textBetween o c))) ∨
    ((∀ o c, ¬ LastDocComment stream i o c) ∧ stream.inheritsDoc i = .ok false) := by
  rw [inheritsDoc]
  cases hf : stream.findPrevious { kinds := [.docOpen] } ((i : Int) - 1) with
  | some o =>
    obtain ⟨hlt, hopen, hafter⟩ := (findPrevious_before hi).1 hf
    obtain ⟨c, tags, hg⟩ := hs.group_of_docOpen hopen
    refine Or.inl ⟨o, c, ⟨⟨tags, hg⟩, hlt, fun {o' _ _} hg' ho' => ?_⟩, ?_⟩
    · by_contra hgt
      have hno := hafter o' (by omega) ho'
      rw [hg'.accepts_docOpen] at hno
      cases hno
    · simp only [hg.findNext_docClose]
  | none =>
    refine Or.inr ⟨fun o c hl => ?_, rfl⟩
    rw [hs.findPrevious_docOpen hi hl] at hf
    cases hf

theorem Sound.exists_inheritsDoc (hs : stream.Sound) (hi : i ≤ stream.size) :
    ∃ inherits, stream.inheritsDoc i = .ok inherits := by
  rcases hs.inheritsDoc_cases hi with ⟨o, c, -, h⟩ | ⟨-, h⟩
  · exact ⟨_, h⟩
  · exact ⟨_, h⟩

theorem Sound.inheritsDoc_eq_true (hs : stream.Sound) (hi : i ≤ stream.size) :
    stream.inheritsDoc i = .ok true ↔
      ∃ o c, LastDocComment stream i o c ∧ hasInheritMarker (stream.textBetween o c) = true := by
  rcases hs.inheritsDoc_cases hi with ⟨o, c, hl, h⟩ | ⟨hnone, h⟩
  · rw [h]
    constructor
    · intro hmarker
      exact ⟨o, c, hl, Except.ok.inj hmarker⟩
    · rintro ⟨o', c', hl', hmarker⟩
      obtain ⟨rfl, rfl⟩ := hl.unique hl'
      rw [hmarker]
  · rw [h]
    constructor
    · intro hmarker
      cases hmarker
    · rintro ⟨o, c, hl, -⟩
      exact absurd hl (hnone o c)

/-- Behind the comment of a function, no doc comment opens up to the function. -/
theorem opener_le_of_locateComment {p o c : Nat} {tags : List Int} (hi : i ≤ stream.size)
    (hloc : stream.locateComment i = some p) (hg : DocGroup stream.toList o c tags) (ho : o < i) :
    o ≤ p := by
  obtain ⟨last, hle, hlt, hremark, hbetween⟩ := locateComment_between hi hloc
  by_contra hpo
  obtain ⟨first, hfirst, hopen⟩ := accepts_kinds.1 hg.accepts_docOpen
  have hkind : first.kind = .docOpen := by simpa using hopen
  by_cases hol : o = last
  · subst hol
    obtain ⟨token, ht, hk⟩ := hremark (by omega)
    obtain rfl := Option.some.inj (hfirst.symm.trans ht)
    rw [hkind] at hk
    cases hk
  · rcases hbetween o first (by omega) ho hol hfirst with hk | hk
    · rw [hkind] at hk
      cases hk
    · rw [hkind] at hk
      cases hk

/-! ## Plain comments -/

/-- Before a function with a plain comment, doc comments end before that comment. -/
theorem closer_lt_plainComment {p o c : Nat} {tags : List Int} {own : Token} (hi : i ≤ stream.size)
    (hloc : stream.locateComment i = some p) (hp : stream[p]? = some own) (hplain : own.kind = .comment)
    (hg : DocGroup stream.toList o c tags) (ho : o < i) : c < p := by
  have hop := opener_le_of_locateComment hi hloc hg ho
  by_contra hge
  -- a plain comment is no part of a doc comment
  rcases hg.kind_at hop (Nat.le_of_not_lt hge) hp with ⟨-, hk⟩ | ⟨-, -, hk⟩ | ⟨-, hk⟩
  · rw [hplain] at hk
    cases hk
  · rw [hplain] at hk
    cases hk
  · rw [hplain] at hk
    cases hk

/-- The last doc comment before a function with a plain comment is the last one before that comment. -/
theorem lastDocComment_plainComment {p o c : Nat} {own : Token} (hi : i ≤ stream.size)
    (hloc : stream.locateComment i = some p) (hp : stream[p]? = some own)
    (hplain : own.kind = .comment) :
    LastDocComment stream i o c ↔ LastDocComment stream p o c ∧ c < p := by
  obtain ⟨last, hle, hlt, -, -⟩ := locateComment_between hi hloc
  constructor
  · intro h
    obtain ⟨tags, hg⟩ := h.group
    have hcp := closer_lt_plainComment hi hloc hp hplain hg h.before
    have hoc := hg.lt
    exact ⟨⟨⟨tags, hg⟩, by omega, fun hg' ho' => h.last hg' (by omega)⟩, hcp⟩
  · rintro ⟨h, -⟩
    obtain ⟨tags, hg⟩ := h.group
    have hop := h.before
    refine ⟨⟨tags, hg⟩, by omega, fun hg' ho' => h.last hg' ?_⟩
    have hcp := closer_lt_plainComment hi hloc hp hplain hg' ho'
    have hoc := hg'.lt
    omega

/-- A function with a plain comment is exempt exactly if the last doc comment before that comment has the
inherit marker. Then its parameters and its return value are not checked; otherwise its parameters are,
and its return value if there is one. -/
theorem plain_comment_exempt_iff {source : Text} (h : ofSource source = .ok stream) {p : Nat}
    {own : Token} (hi : i < stream.size) (hloc : stream.locateComment i = some p)
    (hp : stream[p]? = some own) (hplain : own.kind = .comment) :
    (stream.inheritsDoc i = .ok true ↔ ∃ o c, LastDocComment stream p o c ∧ c < p ∧
      hasInheritMarker (stream.textBetween o c) = true) ∧
    (stream.inheritsDoc i = .ok false ↔ ∀ o c, LastDocComment stream p o c → c < p →
      hasInheritMarker (stream.textBetween o c) = false) ∧
    (∀ validator comment, stream.inheritsDoc i = .ok true →
      stream.askParameters validator i comment = pure () ∧
        stream.askReturn validator i comment = pure ()) ∧
    ∀ validator comment, stream.inheritsDoc i = .ok false →
      stream.askParameters validator i comment = validator.checkParameters stream i comment ∧
        (stream.returnsValue i = .ok true →
          stream.askReturn validator i comment = validator.checkReturn stream i comment) := by
  have hs := sound h
  have hsize : i ≤ stream.size := Nat.le_of_lt hi
  have htrue : stream.inheritsDoc i = .ok true ↔ ∃ o c, LastDocComment stream p o c ∧ c < p ∧
      hasInheritMarker (stream.textBetween o c) = true := by
    rw [hs.inheritsDoc_eq_true hsize]
    simp only [lastDocComment_plainComment hsize hloc hp hplain, and_assoc]
  refine ⟨htrue, ?_, ?_, ?_⟩
  · obtain ⟨inherits, hinherits⟩ := hs.exists_inheritsDoc hsize
    rw [hinherits] at htrue ⊢
    cases inherits with
    | true =>
      obtain ⟨o, c, hl, hcp, hmarker⟩ := htrue.1 rfl
      refine iff_of_false nofun fun hno => ?_
      rw [hno o c hl hcp] at hmarker
      cases hmarker
    | false =>
      refine iff_of_true rfl fun o c hl hcp => ?_
      by_contra hmarker
      have hin := htrue.2 ⟨o, c, hl, hcp, by simpa using hmarker⟩
      cases hin
  · intro validator comment hin
    simp [askParameters, askReturn, hin]
  · intro validator comment hout
    refine ⟨by simp [askParameters, hout], fun hreturns => ?_⟩
    simp [askReturn, hout, hreturns]

/-- Two functions: `a` inherits its comment, and the comment of `b` is a remark on a line of its own. -/
def inheritedThenRemark : Text :=
  "<?php\n/** \x7b@inheritdoc\x7d */\nfunction a() \x7b\x7d\n// b\nfunction b($x) \x7b\x7d".toList

/-- What a run says about `b`: its comment is the remark, it is exempt, and nothing is found. -/
theorem inheritedThenRemark_run :
    ∃ stream, ofSource inheritedThenRemark = .ok stream ∧
      ∃ function own : Token, stream[19]? = some function ∧ function.kind = .function ∧
        stream.locateComment (19 : Nat) = some 17 ∧ stream[17]? = some own ∧ own.kind = .comment ∧
        stream.inheritsDoc (19 : Nat) = .ok true ∧
        (stream.checkFunction .standard 19).events.filterMap (·.diagnostic?) = [] := by
  have hrun : (ofSource inheritedThenRemark).toOption.any (fun stream =>
      stream[19]?.any (·.kind == .function) && stream[17]?.any (·.kind == .comment) &&
        stream.locateComment 19 == some 17 && (stream.inheritsDoc 19).toOption == some true &&
        (stream.checkFunction .standard 19).events.filterMap (·.diagnostic?) == []) = true := by
    decide +kernel
  obtain ⟨stream, h, hat⟩ := exists_eq_ok_of_any hrun
  simp only [Bool.and_eq_true, beq_iff_eq, Option.any_eq_true] at hat
  obtain ⟨⟨⟨⟨⟨function, hi, hk⟩, own, hp, hplain⟩, hloc⟩, hinherits⟩, hfound⟩ := hat
  exact ⟨stream, h, function, own, hi, hk, hloc, hp, hplain, eq_ok_of_toOption hinherits, hfound⟩

/-- The last doc comment before the remark is that of `a`, and is asked for the marker. -/
theorem plain_comment_exempt_iff_remark :
    ∃ stream, ofSource inheritedThenRemark = .ok stream ∧
      ∃ own : Token, 19 < stream.size ∧ stream.locateComment (19 : Nat) = some 17 ∧
        stream[17]? = some own ∧ own.kind = .comment ∧
        ∃ o c, LastDocComment stream 17 o c ∧ c < 17 ∧
          hasInheritMarker (stream.textBetween o c) = true := by
  obtain ⟨stream, h, function, own, hi, -, hloc, hp, hplain, hinherits, -⟩ := inheritedThenRemark_run
  obtain ⟨o, c, hl, hcp, hmarker⟩ :=
    (plain_comment_exempt_iff h (lt_size hi) hloc hp hplain).1.1 hinherits
  exact ⟨stream, h, own, lt_size hi, hloc, hp, hplain, o, c, hl, hcp, hmarker⟩

/-- A plain comment does not keep a function from being exempt: nothing is found about `b`, though it has
a parameter that no comment speaks of. -/
theorem plain_comment_exempt_borrowed :
    ¬ ∀ (source : Text) (stream : Stream) (i p : Nat) (function own : Token),
      ofSource source = .ok stream → stream[i]? = some function → function.kind = .function →
      stream.locateComment i = some p → stream[p]? = some own → own.kind = .comment →
      stream.inheritsDoc i = .ok false := by
  intro hclaim
  obtain ⟨stream, h, function, own, hi, hk, hloc, hp, hplain, hinherits, -⟩ := inheritedThenRemark_run
  have hnot := hclaim inheritedThenRemark stream 19 17 function own h hi hk hloc hp hplain
  rw [hinherits] at hnot
  cases hnot

end Stream

end DocLint
