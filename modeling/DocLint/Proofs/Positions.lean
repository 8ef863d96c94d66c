import DocLint.Proofs.Lexing
import DocLint.Proofs.Pairing
import Mathlib.Data.List.Induction

/-!
# Tokens tile their source

The tokens of a source, one after the other, are the source: none is empty, nothing is lost or
doubled, and each one's line and column are those of the place where the text before it ends. Pairing
does not touch this, whatever tokens it is given.

Lines and columns are laid out by a fold over the text (`Pos.advance`). `Pos.advance_start` reads that
fold as two counts: the line feeds, and the characters since the last of them.
-/

namespace DocLint

/-! ## Places as counts -/

/-- What a text shows of its last line: all that follows the last line feed. -/
def Text.lastLine (text : Text) : Text := (text.reverse.takeWhile (· != '\n')).reverse

theorem Text.lastLine_concat (text : Text) (c : Char) :
    Text.lastLine (text ++ [c]) = if c = '\n' then [] else Text.lastLine text ++ [c] := by
  by_cases h : c = '\n'
  · simp [Text.lastLine, h]
  · simp [Text.lastLine, h]

/-- The place after a text: one line more for each line feed, one column more for each character of
the last line. -/
theorem Pos.advance_start (text : Text) :
    Pos.start.advance text = ⟨1 + text.count '\n', 1 + (Text.lastLine text).length⟩ := by
  induction text using List.reverseRecOn with
  | nil => rfl
  | append_singleton text c ih =>
    rw [Pos.advance_append, ih, Text.lastLine_concat]
    by_cases h : c = '\n'
    · simp [Pos.advance, Pos.next, h, Nat.add_assoc]
    · simp [Pos.advance, Pos.next, h, Nat.add_assoc]

theorem Text.lastLine_append {front more : Text} (h : '\n' ∉ more) :
    Text.lastLine (front ++ more) = Text.lastLine front ++ more := by
  have hall : ∀ c ∈ more.reverse, (c != '\n') = true := by
    intro c hc
    rw [bne_iff_ne]
    rintro rfl
    exact h (List.mem_reverse.1 hc)
  rw [Text.lastLine, List.reverse_append, List.takeWhile_append_of_pos hall, List.reverse_append,
    List.reverse_reverse, Text.lastLine]

/-- Behind more text there is another place. -/
theorem Pos.advance_start_ne {front more : Text} (hne : more ≠ [])
    (hline : (Pos.start.advance front).line = (Pos.start.advance (front ++ more)).line) :
    (Pos.start.advance front).column ≠ (Pos.start.advance (front ++ more)).column := by
  rw [Pos.advance_start, Pos.advance_start] at hline ⊢
  intro hcolumn
  by_cases hfeed : '\n' ∈ more
  · have hpos := List.count_pos_iff.2 hfeed
    simp only [List.count_append] at hline
    omega
  · have hpos := List.length_pos_iff.2 hne
    simp only [Text.lastLine_append hfeed, List.length_append] at hcolumn
    omega

/-! ## Layout -/

/-- Each token starts where the text of the tokens before it ends. -/
def PlacedFrom : Pos → List Token → Prop
  | _, [] => True
  | pos, token :: rest =>
    token.line = pos.line ∧ token.column = pos.column ∧
      PlacedFrom (pos.advance token.content) rest

theorem placedFrom_append {pos : Pos} {front back : List Token} :
    PlacedFrom pos (front ++ back) ↔
      PlacedFrom pos front ∧ PlacedFrom (pos.advance (front.flatMap (·.content))) back := by
  induction front generalizing pos with
  | nil => simp [PlacedFrom, Pos.advance]
  | cons token rest ih => simp [PlacedFrom, ih, Pos.advance_append, and_assoc]

theorem PlacedFrom.getElem? {pos : Pos} {tokens : List Token} (h : PlacedFrom pos tokens) {i : Nat}
    {token : Token} (hi : tokens[i]? = some token) :
    token.line = (pos.advance ((tokens.take i).flatMap (·.content))).line ∧
      token.column = (pos.advance ((tokens.take i).flatMap (·.content))).column := by
  obtain ⟨hlt, rfl⟩ := List.getElem?_eq_some_iff.1 hi
  rw [← List.take_append_drop i tokens, List.drop_eq_getElem_cons hlt] at h
  obtain ⟨hline, hcolumn, -⟩ := (placedFrom_append.1 h).2
  exact ⟨hline, hcolumn⟩

/-- The lexeme that a token was laid out from. -/
def Token.lexeme (token : Token) : Lexeme := ⟨token.kind, token.content⟩

theorem placeAll_lexeme (pos : Pos) (lexemes : List Lexeme) :
    (placeAll pos lexemes).map Token.lexeme = lexemes := by
  induction lexemes generalizing pos with
  | nil => rfl
  | cons lexeme rest ih => simp [placeAll, ih, Token.lexeme, Lexeme.placed]

theorem Piece.tokens_lexeme (pos : Pos) (index : Nat) (piece : Piece) :
    (piece.tokens pos index).map Token.lexeme = piece.lexemes := by
  cases piece with
  | single lexeme => rfl
  | docComment body =>
    simp [Piece.tokens, Piece.lexemes, placeAll_lexeme, Token.lexeme, Lexeme.placed,
      Piece.docOpening, Piece.docClosing]

/-- Laying out keeps the lexemes, in their order. -/
theorem layoutFrom_lexeme (pos : Pos) (index : Nat) (pieces : List Piece) :
    (layoutFrom pos index pieces).map Token.lexeme = pieces.flatMap (·.lexemes) := by
  induction pieces generalizing pos index with
  | nil => rfl
  | cons piece rest ih => simp [layoutFrom, ih, Piece.tokens_lexeme]

/-- The text of tokens is the text of their lexemes. -/
theorem flatMap_content (tokens : List Token) :
    tokens.flatMap (·.content) = (tokens.map Token.lexeme).flatMap (·.text) := by
  rw [List.flatMap_map]
  rfl

theorem Piece.tokens_content (pos : Pos) (index : Nat) (piece : Piece) :
    (piece.tokens pos index).flatMap (·.content) = piece.text := by
  rw [flatMap_content, Piece.tokens_lexeme, Piece.text]

theorem placeAll_placed (pos : Pos) (lexemes : List Lexeme) :
    PlacedFrom pos (placeAll pos lexemes) := by
  induction lexemes generalizing pos with
  | nil => trivial
  | cons lexeme rest ih => exact ⟨rfl, rfl, ih _⟩

theorem Piece.tokens_placed (pos : Pos) (index : Nat) (piece : Piece) :
    PlacedFrom pos (piece.tokens pos index) := by
  cases piece with
  | single lexeme => exact ⟨rfl, rfl, trivial⟩
  | docComment body =>
    refine ⟨rfl, rfl, placedFrom_append.2 ⟨placeAll_placed _ body, ?_⟩⟩
    rw [flatMap_content, placeAll_lexeme]
    exact ⟨rfl, rfl, trivial⟩

theorem layoutFrom_placed (pos : Pos) (index : Nat) (pieces : List Piece) :
    PlacedFrom pos (layoutFrom pos index pieces) := by
  induction pieces generalizing pos index with
  | nil => trivial
  | cons piece rest ih =>
    refine placedFrom_append.2 ⟨Piece.tokens_placed pos index piece, ?_⟩
    rw [Piece.tokens_content]
    exact ih _ _

/-! ## Pairing -/

/-- The text of a token and the place where it starts. -/
def Token.span (token : Token) : Text × Int × Int := (token.content, token.line, token.column)

/-- Pairing changes neither the number nor the order of tokens, nor their texts and places. -/
theorem pair_span {tokens paired : List Token} (h : pair tokens = .ok paired) :
    paired.map Token.span = tokens.map Token.span := by
  refine List.ext_getElem (by simpa using pair_length h) fun i hi hi' => ?_
  have hp : i < paired.length := by simpa using hi
  obtain ⟨before, hb, kept, -⟩ := pair_getElem? h (List.getElem?_eq_getElem hp)
  obtain ⟨ht, rfl⟩ := List.getElem?_eq_some_iff.1 hb
  simp [Token.span, kept.content, kept.line, kept.column]

theorem flatMap_content_of_span {front back : List Token}
    (h : front.map Token.span = back.map Token.span) :
    front.flatMap (·.content) = back.flatMap (·.content) := by
  have hspan : ∀ tokens : List Token,
      tokens.flatMap (·.content) = (tokens.map Token.span).flatMap (·.1) := by
    intro tokens
    rw [List.flatMap_map]
    rfl
  rw [hspan, hspan, h]

theorem PlacedFrom.of_span {pos : Pos} {front back : List Token} (hf : PlacedFrom pos front)
    (h : front.map Token.span = back.map Token.span) : PlacedFrom pos back := by
  induction front generalizing pos back with
  | nil =>
    obtain rfl : back = [] := by simpa using h.symm
    trivial
  | cons token rest ih =>
    cases back with
    | nil => simp at h
    | cons other back =>
      obtain ⟨hspan, hrest⟩ : token.span = other.span ∧ rest.map Token.span = back.map Token.span := by
        simpa using h
      obtain ⟨hcontent, hline, hcolumn⟩ : token.content = other.content ∧ token.line = other.line ∧
          token.column = other.column := by
        simpa [Token.span] using hspan
      obtain ⟨h1, h2, h3⟩ := hf
      exact ⟨hline ▸ h1, hcolumn ▸ h2, ih (hcontent ▸ h3) hrest⟩

/-! ## Streams of sources -/

namespace Stream

variable {source : Text} {stream : Stream}

/-- The run behind the stream of a source. -/
theorem lexed_of_ofSource (h : ofSource source = .ok stream) :
    Lexed .html none source (scan source).pieces :=
  lexed_scanFrom .html none source (ofSource_eq_ok.1 h).1

/-- The tokens of a stream have the texts and places of their layout. -/
theorem span_eq_layout (h : ofSource source = .ok stream) :
    stream.toList.map Token.span = (layout (scan source).pieces).map Token.span :=
  pair_span (ofSource_eq_ok.1 h).2

/-- The tokens of a source are the source. -/
theorem flatMap_content_eq (h : ofSource source = .ok stream) :
    stream.toList.flatMap (·.content) = source := by
  calc stream.toList.flatMap (·.content)
      = (layout (scan source).pieces).flatMap (·.content) :=
        flatMap_content_of_span (span_eq_layout h)
    _ = ((scan source).pieces.flatMap (·.lexemes)).flatMap (·.text) := by
        rw [flatMap_content, layout, layoutFrom_lexeme]
    _ = (scan source).pieces.flatMap (·.text) := by
        rw [List.flatMap_assoc]
        rfl
    _ = source := (lexed_of_ofSource h).text_eq

/-- The text that the tokens before an index stand for. -/
def textBefore (stream : Stream) (i : Nat) : Text := (stream.toList.take i).flatMap (·.content)

/-- The text that the tokens from an index on stand for. -/
def textFrom (stream : Stream) (i : Nat) : Text := (stream.toList.drop i).flatMap (·.content)

theorem textBefore_append_textFrom (h : ofSource source = .ok stream) (i : Nat) :
    stream.textBefore i ++ stream.textFrom i = source := by
  rw [textBefore, textFrom, ← List.flatMap_append, List.take_append_drop, flatMap_content_eq h]

theorem textFrom_eq {i : Nat} {token : Token} (hi : stream[i]? = some token) :
    stream.textFrom i = token.content ++ stream.textFrom (i + 1) := by
  rw [← Array.getElem?_toList] at hi
  obtain ⟨hlt, rfl⟩ := List.getElem?_eq_some_iff.1 hi
  rw [textFrom, List.drop_eq_getElem_cons hlt, List.flatMap_cons, textFrom]

theorem textBetween_eq_extract (stream : Stream) (first last : Nat) :
    stream.textBetween first last = (stream.extract first last).toList.flatMap (·.content) := by
  have hbound : ∀ n : Nat, (if (n : Int) < 0 then (n : Int) + stream.size else (n : Int)).toNat = n := by
    intro n
    rw [if_neg (by omega)]
    rfl
  simp only [textBetween, hbound]

theorem textBefore_append_textBetween (stream : Stream) {first last : Nat} (h : first ≤ last) :
    stream.textBefore first ++ stream.textBetween first last = stream.textBefore last := by
  have hfront : stream.toList.take first = (stream.toList.take last).take first := by
    rw [List.take_take, Nat.min_eq_left h]
  have hback : (stream.extract first last).toList = (stream.toList.take last).drop first := by
    rw [Array.toList_extract, List.extract_eq_take_drop, List.drop_take]
  rw [textBetween_eq_extract, textBefore, textBefore, ← List.flatMap_append, hfront, hback,
    List.take_append_drop]

theorem textBefore_eq_layout (h : ofSource source = .ok stream) (i : Nat) :
    stream.textBefore i = ((layout (scan source).pieces).take i).flatMap (·.content) := by
  refine flatMap_content_of_span ?_
  rw [List.map_take, List.map_take, span_eq_layout h]

/-- No token of a source is empty. -/
theorem content_ne_nil (h : ofSource source = .ok stream) {i : Nat} {token : Token}
    (hi : stream[i]? = some token) : token.content ≠ [] := by
  rw [← Array.getElem?_toList] at hi
  obtain ⟨before, hb, kept, -⟩ := pair_getElem? (ofSource_eq_ok.1 h).2 hi
  have hmem : before.lexeme ∈ (scan source).pieces.flatMap (·.lexemes) := by
    rw [← layoutFrom_lexeme .start 0]
    exact List.mem_map_of_mem (List.mem_of_getElem? hb)
  obtain ⟨piece, hp, hl⟩ := List.mem_flatMap.1 hmem
  rw [kept.content]
  exact (lexed_of_ofSource h).lexeme_text_ne_nil piece hp _ hl

/-- The tokens of a source are placed from its start on. -/
theorem placed (h : ofSource source = .ok stream) : PlacedFrom .start stream.toList :=
  (layoutFrom_placed .start 0 (scan source).pieces).of_span (span_eq_layout h).symm

/-- The place of a token, as counts over the text before it. -/
theorem place_eq (h : ofSource source = .ok stream) {i : Nat} {token : Token}
    (hi : stream[i]? = some token) :
    token.line = 1 + ((stream.toList.take i).flatMap (·.content)).count '\n' ∧
      token.column = 1 + (Text.lastLine ((stream.toList.take i).flatMap (·.content))).length := by
  rw [← Array.getElem?_toList] at hi
  obtain ⟨hline, hcolumn⟩ := (placed h).getElem? hi
  rw [Pos.advance_start] at hline hcolumn
  exact ⟨by simpa using hline, by simpa using hcolumn⟩

/-- The tokens of a source tile it: none is empty, together they are the source, and each has the
line and column at which the text before it ends. Pairing keeps the number and the order of any
tokens, and their texts and places. -/
theorem tokens_tile_source (h : ofSource source = .ok stream) :
    (∀ token ∈ stream, token.content ≠ []) ∧
    stream.toList.flatMap (·.content) = source ∧
    (∀ (i : Nat) (token : Token), stream[i]? = some token →
      token.line = 1 + ((stream.toList.take i).flatMap (·.content)).count '\n' ∧
      token.column = 1 + (Text.lastLine ((stream.toList.take i).flatMap (·.content))).length) ∧
    ∀ tokens paired : List Token, pair tokens = .ok paired →
      paired.map Token.span = tokens.map Token.span := by
  refine ⟨?_, flatMap_content_eq h, fun i token hi => place_eq h hi, fun _ _ hp => pair_span hp⟩
  intro token ht
  obtain ⟨i, hi⟩ := Array.mem_iff_getElem?.1 ht
  exact content_ne_nil h hi

/-- A source with text outside code, a doc comment of two lines and a call. -/
theorem tokens_tile_source_two_lines :
    ∃ stream, ofSource "a\n<?php /** @b\r\n c */ f(1.5);".toList = .ok stream ∧
      (∀ token ∈ stream, token.content ≠ []) ∧
      stream.toList.flatMap (·.content) = "a\n<?php /** @b\r\n c */ f(1.5);".toList ∧
      (∀ (i : Nat) (token : Token), stream[i]? = some token →
        token.line = 1 + ((stream.toList.take i).flatMap (·.content)).count '\n' ∧
        token.column = 1 + (Text.lastLine ((stream.toList.take i).flatMap (·.content))).length) ∧
      stream.toList.map Token.span =
        (layout (scan "a\n<?php /** @b\r\n c */ f(1.5);".toList).pieces).map Token.span := by
  obtain ⟨stream, h⟩ := exists_eq_ok
    (by decide +kernel : (ofSource "a\n<?php /** @b\r\n c */ f(1.5);".toList).isOk = true)
  obtain ⟨hne, htext, hplace, hpair⟩ := tokens_tile_source h
  exact ⟨stream, h, hne, htext, hplace, hpair _ _ (ofSource_eq_ok.1 h).2⟩

end Stream

end DocLint
