import DocLint.Proofs.Positions
import DocLint.Rule.DocComment
import DocLint.Rule.TagValidator

/-!
# Doc comments in a stream

A doc comment is a group of tokens: its opening points to its closing and to its tags, its closing
points back, and what is between are gaps, stars, tags and texts (`DocGroup`). In the stream of a source
every part of a doc comment is in one group, and no other token has links of this sort.

The rule comes to a comment from its end, by the closing's link, and the checks of tags from its start,
by the opening's links. On a group both ways give the same comment (`DocGroup.readComment_eq`,
`DocGroup.tagsNamed_eq`).
-/

namespace DocLint

/-- The tokens from `o` to `c` are a doc comment with tags at the indices `tags`. -/
structure DocGroup (tokens : List Token) (o c : Nat) (tags : List Int) : Prop where
  lt : o < c
  opener : ∃ token, tokens[o]? = some token ∧ token.kind = .docOpen ∧
    token.comment = { closer := some (c : Int) } ∧ token.tags = tags
  closer : ∃ token, tokens[c]? = some token ∧ token.kind = .docClose ∧
    token.comment = { opener := some (o : Int) } ∧ token.tags = []
  inner : ∀ i, o < i → i < c → ∃ token, tokens[i]? = some token ∧ token.kind.isDocInner = true
  sorted : tags.Pairwise (· < ·)
  mem_tags : ∀ index : Int, index ∈ tags ↔ ∃ (i : Nat) (token : Token),
    index = i ∧ o < i ∧ i < c ∧ tokens[i]? = some token ∧ token.kind = .docTag

/-- A token has no links of doc comments but those that its kind calls for. -/
structure Token.PlainLinks (token : Token) : Prop where
  closer : token.kind ≠ .docOpen → token.comment.closer = none ∧ token.tags = []
  opener : token.kind ≠ .docClose → token.comment.opener = none

/-- Two groups with a token in common are one. -/
theorem DocGroup.unique {tokens : List Token} {o c o' c' i : Nat} {tags tags' : List Int}
    (h : DocGroup tokens o c tags) (h' : DocGroup tokens o' c' tags') (ho : o ≤ i) (hc : i ≤ c)
    (ho' : o' ≤ i) (hc' : i ≤ c') : o = o' ∧ c = c' ∧ tags = tags' := by
  -- the opening of one group is no token behind the opening of the other
  have key : ∀ {o c o' c' : Nat} {tags tags' : List Int}, DocGroup tokens o c tags →
      DocGroup tokens o' c' tags' → o' ≤ i → i ≤ c → ¬ o < o' := by
    intro o c o' c' tags tags' h h' ho' hc hlt
    obtain ⟨token, ht, hk, -, -⟩ := h'.opener
    rcases Nat.lt_or_ge o' c with hin | hge
    · obtain ⟨other, hother, hinner⟩ := h.inner o' hlt hin
      obtain rfl : token = other := Option.some.inj (ht.symm.trans hother)
      rw [hk] at hinner
      cases hinner
    · obtain ⟨other, hother, hclose, -⟩ := h.closer
      obtain rfl : o' = c := by omega
      obtain rfl : token = other := Option.some.inj (ht.symm.trans hother)
      rw [hk] at hclose
      cases hclose
  have heq : o = o' := by
    have h1 := key h h' ho' hc
    have h2 := key h' h ho hc'
    omega
  subst heq
  obtain ⟨token, ht, -, hlink, htags⟩ := h.opener
  obtain ⟨token', ht', -, hlink', htags'⟩ := h'.opener
  obtain rfl : token = token' := Option.some.inj (ht.symm.trans ht')
  rw [hlink] at hlink'
  have hcloser : (c : Int) = c' := by simpa using hlink'
  exact ⟨rfl, by omega, htags.symm.trans htags'⟩

/-! ## Layout makes groups -/

theorem mem_tagIndices {index i : Nat} {lexemes : List Lexeme} :
    i ∈ tagIndices index lexemes ↔
      ∃ j lexeme, i = index + j ∧ lexemes[j]? = some lexeme ∧ lexeme.kind = .docTag := by
  induction lexemes generalizing index with
  | nil => simp [tagIndices]
  | cons lexeme rest ih =>
    have hrest : i ∈ tagIndices (index + 1) rest ↔ ∃ j other,
        i = index + (j + 1) ∧ (lexeme :: rest)[j + 1]? = some other ∧ other.kind = .docTag := by
      rw [ih]
      simp [Nat.add_assoc, Nat.add_comm 1]
    rw [tagIndices]
    constructor
    · intro h
      by_cases hk : lexeme.kind = .docTag
      · simp only [hk, beq_self_eq_true, if_true, List.mem_cons] at h
        rcases h with rfl | h
        · exact ⟨0, lexeme, rfl, rfl, hk⟩
        · obtain ⟨j, other, hj⟩ := hrest.1 h
          exact ⟨j + 1, other, hj⟩
      · simp only [beq_iff_eq, hk, if_false] at h
        obtain ⟨j, other, hj⟩ := hrest.1 h
        exact ⟨j + 1, other, hj⟩
    · rintro ⟨j, other, hi, hother, hk⟩
      cases j with
      | zero =>
        obtain rfl : lexeme = other := by simpa using hother
        simp [hk, hi]
      | succ j =>
        have hm := hrest.2 ⟨j, other, hi, hother, hk⟩
        split
        · exact List.mem_cons_of_mem _ hm
        · exact hm

theorem tagIndices_sorted (index : Nat) (lexemes : List Lexeme) :
    (tagIndices index lexemes).Pairwise (· < ·) := by
  induction lexemes generalizing index with
  | nil => exact List.Pairwise.nil
  | cons lexeme rest ih =>
    rw [tagIndices]
    split
    · refine List.Pairwise.cons (fun i hi => ?_) (ih (index + 1))
      obtain ⟨j, -, rfl, -⟩ := mem_tagIndices.1 hi
      omega
    · exact ih (index + 1)

theorem placeAll_length (pos : Pos) (lexemes : List Lexeme) :
    (placeAll pos lexemes).length = lexemes.length := by
  rw [← List.length_map Token.lexeme, placeAll_lexeme]

theorem placeAll_getElem? (pos : Pos) {lexemes : List Lexeme} {j : Nat} {lexeme : Lexeme}
    (h : lexemes[j]? = some lexeme) :
    ∃ token, (placeAll pos lexemes)[j]? = some token ∧ token.kind = lexeme.kind := by
  have hl : ((placeAll pos lexemes).map Token.lexeme)[j]? = some lexeme := by
    rw [placeAll_lexeme, h]
  rw [List.getElem?_map] at hl
  obtain ⟨token, ht, rfl⟩ := Option.map_eq_some_iff.1 hl
  exact ⟨token, ht, rfl⟩

theorem Piece.tokens_length (pos : Pos) (index : Nat) (piece : Piece) :
    (piece.tokens pos index).length = piece.lexemes.length := by
  have := congrArg List.length (Piece.tokens_lexeme pos index piece)
  simpa using this

/-- Every token of a layout is in the tokens of one piece. -/
theorem layoutFrom_split {pos : Pos} {index i : Nat} {pieces : List Piece} {token : Token}
    (h : (layoutFrom pos index pieces)[i]? = some token) :
    ∃ front back piece start j, piece ∈ pieces ∧ i = front.length + j ∧
      layoutFrom pos index pieces =
        front ++ (piece.tokens start (index + front.length) ++ back) ∧
      (piece.tokens start (index + front.length))[j]? = some token := by
  induction pieces generalizing pos index i with
  | nil => simp [layoutFrom] at h
  | cons piece rest ih =>
    rw [layoutFrom] at h ⊢
    rcases Nat.lt_or_ge i (piece.tokens pos index).length with hlt | hge
    · rw [List.getElem?_append_left hlt] at h
      exact ⟨[], _, piece, pos, i, List.mem_cons_self, by simp, rfl, h⟩
    · rw [List.getElem?_append_right hge] at h
      obtain ⟨front, back, found, start, j, hm, hi, hsplit, hj⟩ := ih h
      have hindex : index + piece.lexemes.length + front.length =
          index + (piece.tokens pos index ++ front).length := by
        rw [List.length_append, Piece.tokens_length]
        omega
      rw [hindex] at hsplit hj
      refine ⟨piece.tokens pos index ++ front, back, found, start, j, List.mem_cons_of_mem _ hm, ?_,
        ?_, hj⟩
      · rw [List.length_append]
        omega
      · rw [hsplit, List.append_assoc]

section Comment

variable {first last : Token} {front inner back : List Token}

theorem getElem?_group_first :
    (front ++ (first :: (inner ++ [last]) ++ back))[front.length]? = some first := by
  simp

theorem getElem?_group_inner {i : Nat} (ho : front.length < i)
    (hc : i < front.length + inner.length + 1) :
    (front ++ (first :: (inner ++ [last]) ++ back))[i]? = inner[i - front.length - 1]? := by
  obtain ⟨j, rfl⟩ : ∃ j, i = front.length + (j + 1) := ⟨i - front.length - 1, by omega⟩
  have hj : j < inner.length := by omega
  have hsub : front.length + (j + 1) - front.length - 1 = j := by omega
  rw [List.getElem?_append_right (by omega), hsub, Nat.add_sub_cancel_left]
  simp [List.getElem?_append_left hj, List.append_assoc]

theorem getElem?_group_last {size : Nat} (h : inner.length = size) :
    (front ++ (first :: (inner ++ [last]) ++ back))[front.length + size + 1]? = some last := by
  subst h
  have hsub : front.length + inner.length + 1 - front.length = inner.length + 1 := by omega
  rw [List.getElem?_append_right (by omega), hsub]
  simp [List.append_assoc]

theorem take_group {size : Nat} (h : inner.length = size) :
    (front ++ (first :: (inner ++ [last]) ++ back)).take (front.length + size + 1) =
      front ++ first :: inner := by
  have hsplit : front ++ (first :: (inner ++ [last]) ++ back) =
      (front ++ first :: inner) ++ (last :: back) := by simp
  have hlen : (front ++ first :: inner).length = front.length + size + 1 := by
    rw [List.length_append, List.length_cons, h, Nat.add_assoc]
  rw [hsplit, ← hlen, List.take_left]

end Comment

/-- The tokens of a doc comment are a group, wherever they stand. -/
theorem docGroup_tokens (front back : List Token) (start : Pos) {body : List Lexeme}
    (h : (Piece.docComment body).Grouped) :
    DocGroup (front ++ ((Piece.docComment body).tokens start front.length ++ back)) front.length
      (front.length + body.length + 1) ((tagIndices (front.length + 1) body).map Int.ofNat) := by
  have hlen := fun pos => placeAll_length pos body
  have hinner : ∀ (i : Nat) (lexeme : Lexeme), front.length < i →
      body[i - front.length - 1]? = some lexeme →
      ∃ token, (front ++ ((Piece.docComment body).tokens start front.length ++ back))[i]? =
        some token ∧ token.kind = lexeme.kind := by
    intro i lexeme ho hl
    have hlt := (List.getElem?_eq_some_iff.1 hl).1
    obtain ⟨token, ht, hk⟩ := placeAll_getElem? (start.advance Piece.docOpening.text) hl
    refine ⟨token, ?_, hk⟩
    rw [Piece.tokens, getElem?_group_inner ho (by rw [hlen]; omega)]
    exact ht
  constructor
  · omega
  · refine ⟨_, getElem?_group_first, rfl, ?_, rfl⟩
    simp
  · exact ⟨_, getElem?_group_last (hlen _), rfl, rfl, rfl⟩
  · intro i ho hc
    have hlt : i - front.length - 1 < body.length := by omega
    obtain ⟨token, ht, hk⟩ := hinner i _ ho (List.getElem?_eq_getElem hlt)
    refine ⟨token, ht, ?_⟩
    rw [hk]
    exact (h _ (List.getElem_mem hlt)).1
  · rw [List.pairwise_map]
    exact (tagIndices_sorted _ _).imp fun hlt => Int.ofNat_lt.2 hlt
  · intro index
    rw [List.mem_map]
    constructor
    · rintro ⟨i, hi, rfl⟩
      obtain ⟨j, lexeme, rfl, hl, hk⟩ := mem_tagIndices.1 hi
      have hlt := (List.getElem?_eq_some_iff.1 hl).1
      have hsub : front.length + 1 + j - front.length - 1 = j := by omega
      obtain ⟨token, ht, htk⟩ := hinner (front.length + 1 + j) lexeme (by omega) (by rw [hsub, hl])
      exact ⟨_, token, rfl, by omega, by omega, ht, htk.trans hk⟩
    · rintro ⟨i, token, rfl, ho, hc, ht, hk⟩
      have hlt : i - front.length - 1 < body.length := by omega
      obtain ⟨token', ht', hk'⟩ := hinner i _ ho (List.getElem?_eq_getElem hlt)
      obtain rfl : token = token' := Option.some.inj (ht.symm.trans ht')
      refine ⟨i, mem_tagIndices.2 ⟨i - front.length - 1, _, by omega,
        List.getElem?_eq_getElem hlt, hk'.symm.trans hk⟩, rfl⟩

theorem placeAll_links {pos : Pos} {lexemes : List Lexeme} {token : Token}
    (h : token ∈ placeAll pos lexemes) : token.comment = {} ∧ token.tags = [] := by
  induction lexemes generalizing pos with
  | nil => simp [placeAll] at h
  | cons lexeme rest ih =>
    rcases List.mem_cons.1 h with rfl | h
    · exact ⟨rfl, rfl⟩
    · exact ih h

theorem Piece.tokens_plainLinks {pos : Pos} {index : Nat} {piece : Piece} {token : Token}
    (h : token ∈ piece.tokens pos index) : token.PlainLinks := by
  cases piece with
  | single lexeme =>
    obtain rfl : token = lexeme.placed pos := by simpa [Piece.tokens] using h
    exact ⟨fun _ => ⟨rfl, rfl⟩, fun _ => rfl⟩
  | docComment body =>
    simp only [Piece.tokens, List.mem_cons, List.mem_append, List.not_mem_nil, or_false] at h
    rcases h with rfl | h | rfl
    · exact ⟨fun hk => absurd rfl hk, fun _ => rfl⟩
    · obtain ⟨hcomment, htags⟩ := placeAll_links h
      exact ⟨fun _ => ⟨by rw [hcomment], htags⟩, fun _ => by rw [hcomment]⟩
    · exact ⟨fun _ => ⟨rfl, rfl⟩, fun hk => absurd rfl hk⟩

section Layout

variable {pieces : List Piece} {i : Nat} {token : Token}

theorem layout_plainLinks (h : (layout pieces)[i]? = some token) : token.PlainLinks := by
  obtain ⟨front, back, piece, start, j, -, -, -, hj⟩ := layoutFrom_split h
  exact Piece.tokens_plainLinks (List.mem_of_getElem? hj)

/-- Every part of a doc comment in a layout comes from a piece that is one. -/
theorem exists_docComment_layout (hg : ∀ piece ∈ pieces, piece.Grouped)
    (h : (layout pieces)[i]? = some token) (hd : token.kind.isDoc = true) :
    ∃ front back body start, Piece.docComment body ∈ pieces ∧
      layout pieces = front ++ ((Piece.docComment body).tokens start front.length ++ back) ∧
      front.length ≤ i ∧ i ≤ front.length + body.length + 1 := by
  obtain ⟨front, back, piece, start, j, hm, rfl, hsplit, hj⟩ := layoutFrom_split h
  rw [Nat.zero_add] at hsplit hj
  cases piece with
  | single lexeme =>
    obtain rfl : lexeme.placed start = token := by
      have := List.mem_of_getElem? hj
      simpa [Piece.tokens, eq_comm] using this
    have hnot : lexeme.kind.isDoc = false := hg _ hm
    rw [Lexeme.placed, hnot] at hd
    cases hd
  | docComment body =>
    have hsize : (Piece.docComment body).lexemes.length = body.length + 2 := by simp [Piece.lexemes]
    have hlen : j < body.length + 2 := by
      have hlt := (List.getElem?_eq_some_iff.1 hj).1
      rwa [Piece.tokens_length, hsize] at hlt
    exact ⟨front, back, body, start, hm, hsplit, Nat.le_add_right _ _, by omega⟩

/-- Every part of a doc comment in a layout is in a group. -/
theorem exists_docGroup_layout (hg : ∀ piece ∈ pieces, piece.Grouped)
    (h : (layout pieces)[i]? = some token) (hd : token.kind.isDoc = true) :
    ∃ o c tags, DocGroup (layout pieces) o c tags ∧ o ≤ i ∧ i ≤ c := by
  obtain ⟨front, back, body, start, hm, hsplit, ho, hc⟩ := exists_docComment_layout hg h hd
  have hgroup := docGroup_tokens front back start (hg _ hm)
  rw [← hsplit] at hgroup
  exact ⟨_, _, _, hgroup, ho, hc⟩

end Layout

/-! ## Pairing keeps groups -/

section Pair

variable {tokens paired : List Token}

/-- The kind of a part of a doc comment is settled from the start. -/
theorem settledKind_of_isDoc {kind : Kind} {rest : List Token}
    (h : kind.isDoc = true ∨ (settledKind kind rest).isDoc = true) :
    settledKind kind rest = kind := by
  rcases settledKind_cases kind rest with heq | ⟨rfl, heq⟩ | ⟨rfl, heq⟩
  · exact heq
  · rw [heq] at h
    rcases h with h | h <;> cases h
  · rw [heq] at h
    rcases h with h | h <;> cases h

/-- Pairing keeps the parts of doc comments where and what they are. -/
theorem exists_pair_getElem?_of_isDoc (h : pair tokens = .ok paired) {i : Nat} {token : Token}
    (ht : tokens[i]? = some token) (hd : token.kind.isDoc = true) :
    ∃ after, paired[i]? = some after ∧ token.Kept after ∧ after.kind = token.kind := by
  obtain ⟨after, ha, kept, hkind⟩ := exists_pair_getElem? h ht
  rw [settledKind_of_isDoc (Or.inl hd)] at hkind
  exact ⟨after, ha, kept, hkind⟩

theorem DocGroup.of_pair (h : pair tokens = .ok paired) {o c : Nat} {tags : List Int}
    (hg : DocGroup tokens o c tags) : DocGroup paired o c tags := by
  constructor
  · exact hg.lt
  · obtain ⟨token, ht, hk, hlink, htags⟩ := hg.opener
    obtain ⟨after, ha, kept, hkind⟩ := exists_pair_getElem?_of_isDoc h ht (by rw [hk]; rfl)
    exact ⟨after, ha, hkind.trans hk, kept.comment.trans hlink, kept.tags.trans htags⟩
  · obtain ⟨token, ht, hk, hlink, htags⟩ := hg.closer
    obtain ⟨after, ha, kept, hkind⟩ := exists_pair_getElem?_of_isDoc h ht (by rw [hk]; rfl)
    exact ⟨after, ha, hkind.trans hk, kept.comment.trans hlink, kept.tags.trans htags⟩
  · intro i ho hc
    obtain ⟨token, ht, hinner⟩ := hg.inner i ho hc
    have hdoc : token.kind.isDoc = true := Kind.isDoc_iff.2 (Or.inr (Or.inr hinner))
    obtain ⟨after, ha, -, hkind⟩ := exists_pair_getElem?_of_isDoc h ht hdoc
    exact ⟨after, ha, by rw [hkind, hinner]⟩
  · exact hg.sorted
  · intro index
    rw [hg.mem_tags]
    constructor
    · rintro ⟨i, token, rfl, ho, hc, ht, hk⟩
      obtain ⟨after, ha, -, hkind⟩ := exists_pair_getElem?_of_isDoc h ht (by rw [hk]; rfl)
      exact ⟨i, after, rfl, ho, hc, ha, hkind.trans hk⟩
    · rintro ⟨i, after, rfl, ho, hc, ha, hk⟩
      obtain ⟨token, ht, -, hkind⟩ := pair_getElem? h ha
      rw [settledKind_of_isDoc (Or.inr (by rw [← hkind, hk]; rfl)), hk] at hkind
      exact ⟨i, token, rfl, ho, hc, ht, hkind.symm⟩

theorem Token.PlainLinks.of_kept {before after : Token} {rest : List Token}
    (hp : before.PlainLinks) (kept : before.Kept after)
    (hkind : after.kind = settledKind before.kind rest) : after.PlainLinks := by
  have hsame : ∀ kind : Kind, kind.isDoc = true → after.kind ≠ kind → before.kind ≠ kind := by
    rintro kind hd hne rfl
    exact hne (hkind.trans (settledKind_of_isDoc (Or.inl hd)))
  refine ⟨fun hne => ?_, fun hne => ?_⟩
  · rw [kept.comment, kept.tags]
    exact hp.closer (hsame _ rfl hne)
  · rw [kept.comment]
    exact hp.opener (hsame _ rfl hne)

end Pair

/-! ## Reading a group -/

namespace Stream

variable {stream : Stream}

theorem fetch_eq_ok {i : Nat} {token : Token} (h : stream.toList[i]? = some token) :
    stream.fetch i = .ok token := by
  have hlt : (i : Int) < stream.size := by
    have := (List.getElem?_eq_some_iff.1 h).1
    simpa using this
  have htoken : stream.token? i = some token := by
    rw [token?, resolveIndex?, if_pos (Int.natCast_nonneg i), if_pos hlt]
    simpa using h
  rw [fetch, htoken]

/-- The tags that are read at indices of tokens: name and line are those of the token there. -/
theorem tagsAt_eq_ok {indices : List Int}
    (h : ∀ index ∈ indices, ∃ (i : Nat) (token : Token), index = i ∧ stream.toList[i]? = some token) :
    ∃ tags, stream.tagsAt indices = .ok tags ∧ tags.map (·.index) = indices ∧
      ∀ tag ∈ tags, ∃ (i : Nat) (token : Token), stream.toList[i]? = some token ∧
        tag = ⟨token.content, i, token.line⟩ := by
  induction indices with
  | nil => exact ⟨[], rfl, rfl, fun tag ht => absurd ht List.not_mem_nil⟩
  | cons index rest ih =>
    obtain ⟨i, token, rfl, ht⟩ := h index List.mem_cons_self
    obtain ⟨tags, htags, hindex, hall⟩ := ih fun index hi => h index (List.mem_cons_of_mem _ hi)
    refine ⟨⟨token.content, i, token.line⟩ :: tags, ?_, by simp [hindex], ?_⟩
    · rw [tagsAt, fetch_eq_ok ht, htags]
      rfl
    · intro tag hm
      rcases List.mem_cons.1 hm with rfl | hm
      · exact ⟨i, token, ht, rfl⟩
      · exact hall tag hm

/-- Keeping the indices of a text is keeping the tags of that name. -/
theorem keepContent_eq_ok {name : Text} {tags : List DocTag}
    (h : ∀ tag ∈ tags, ∃ (i : Nat) (token : Token), stream.toList[i]? = some token ∧
      tag = ⟨token.content, i, token.line⟩) :
    stream.keepContent name (tags.map (·.index)) =
      .ok ((tags.filter (·.name == name)).map (·.index)) := by
  induction tags with
  | nil => rfl
  | cons tag rest ih =>
    obtain ⟨i, token, ht, rfl⟩ := h tag List.mem_cons_self
    have hrest := ih fun tag hm => h tag (List.mem_cons_of_mem _ hm)
    rw [List.map_cons, keepContent, fetch_eq_ok ht, hrest]
    by_cases hname : token.content = name
    · simp [hname, bind, Except.bind, pure, Except.pure]
    · simp [hname, bind, Except.bind, pure, Except.pure]

end Stream

namespace DocGroup

variable {stream : Stream} {o c : Nat} {tags : List Int}

/-- The tags of a group are tokens of it. -/
theorem exists_token (h : DocGroup stream.toList o c tags) {index : Int} (hm : index ∈ tags) :
    ∃ (i : Nat) (token : Token), index = i ∧ stream.toList[i]? = some token := by
  obtain ⟨i, token, hi, -, -, ht, -⟩ := (h.mem_tags index).1 hm
  exact ⟨i, token, hi, ht⟩

/-- From its end: the comment with its tags in order. -/
theorem readComment_eq (h : DocGroup stream.toList o c tags) {read : List DocTag}
    (hread : stream.tagsAt tags = .ok read) : stream.readComment c = .ok ⟨o, c, read⟩ := by
  obtain ⟨first, ho, -, hlink, htags⟩ := h.opener
  obtain ⟨last, hc, hk, hback, -⟩ := h.closer
  rw [Stream.readComment, Stream.fetch_eq_ok hc]
  simp [bind, Except.bind, pure, Except.pure, hk, hback, Stream.fetch_eq_ok ho, hlink, htags, hread]

/-- From its start: where the comment ends. -/
theorem commentEnd_eq (h : DocGroup stream.toList o c tags) : stream.commentEnd o = .ok (c : Int) := by
  obtain ⟨first, ho, -, hlink, -⟩ := h.opener
  rw [Stream.commentEnd, Stream.fetch_eq_ok ho]
  simp [bind, Except.bind, pure, Except.pure, hlink]

/-- From its start: the tags of one name. -/
theorem tagsNamed_eq (h : DocGroup stream.toList o c tags) (name : Text) :
    stream.tagsNamed o name = stream.keepContent name tags := by
  obtain ⟨first, ho, -, -, htags⟩ := h.opener
  rw [Stream.tagsNamed, Stream.fetch_eq_ok ho]
  simp [bind, Except.bind, htags]

/-- Both ways to a comment give the same: read from its end it starts at `o`, asked at `o` it ends at
`c`, and the tags of any name are the same. -/
theorem views_agree (h : DocGroup stream.toList o c tags) :
    ∃ comment : DocComment, stream.readComment c = .ok comment ∧
      comment.opener = o ∧ comment.closer = c ∧ comment.tags.map (·.index) = tags ∧
      (∀ tag ∈ comment.tags, ∃ (i : Nat) (token : Token), stream[i]? = some token ∧
        tag = ⟨token.content, i, token.line⟩) ∧
      stream.commentEnd o = .ok (c : Int) ∧
      ∀ name, stream.tagsNamed o name = .ok ((comment.tagsNamed name).map (·.index)) := by
  obtain ⟨read, hread, hindex, hall⟩ := Stream.tagsAt_eq_ok fun index hm => h.exists_token hm
  refine ⟨⟨o, c, read⟩, h.readComment_eq hread, rfl, rfl, hindex, ?_, h.commentEnd_eq, fun name => ?_⟩
  · intro tag ht
    obtain ⟨i, token, hi, heq⟩ := hall tag ht
    exact ⟨i, token, by rwa [Array.getElem?_toList] at hi, heq⟩
  · rw [h.tagsNamed_eq, ← hindex]
    exact Stream.keepContent_eq_ok hall

end DocGroup

/-! ## Streams of sources -/

namespace Stream

variable {source : Text} {stream : Stream} {i : Nat} {token : Token}

theorem exists_docGroup (h : ofSource source = .ok stream) (hi : stream[i]? = some token)
    (hd : token.kind.isDoc = true) :
    ∃ o c tags, DocGroup stream.toList o c tags ∧ o ≤ i ∧ i ≤ c := by
  rw [← Array.getElem?_toList] at hi
  have hpair := (ofSource_eq_ok.1 h).2
  obtain ⟨before, hb, -, hkind⟩ := pair_getElem? hpair hi
  rw [settledKind_of_isDoc (Or.inr (by rw [← hkind, hd]))] at hkind
  obtain ⟨o, c, tags, hgroup, ho, hc⟩ :=
    exists_docGroup_layout (lexed_of_ofSource h).grouped hb (by rw [← hkind, hd])
  exact ⟨o, c, tags, hgroup.of_pair hpair, ho, hc⟩

theorem plainLinks (h : ofSource source = .ok stream) (hi : stream[i]? = some token) :
    token.PlainLinks := by
  rw [← Array.getElem?_toList] at hi
  obtain ⟨before, hb, kept, hkind⟩ := pair_getElem? (ofSource_eq_ok.1 h).2 hi
  exact (layout_plainLinks hb).of_kept kept hkind

/-- The doc comments of a source.

* Every part of a doc comment is in exactly one group.
* Only the opening of a group has a closer and tags, and only its closing has an opener.
* On every group the comment that is read from its end and the comment that is asked for at its start
  are the same. -/
theorem doc_comments_grouped (h : ofSource source = .ok stream) :
    (∀ (i : Nat) (token : Token), stream[i]? = some token → token.kind.isDoc = true →
      ∃ o c tags, (DocGroup stream.toList o c tags ∧ o ≤ i ∧ i ≤ c) ∧
        ∀ o' c' tags', DocGroup stream.toList o' c' tags' → o' ≤ i → i ≤ c' →
          o = o' ∧ c = c' ∧ tags = tags') ∧
    (∀ (i : Nat) (token : Token), stream[i]? = some token → token.PlainLinks) ∧
    ∀ o c tags, DocGroup stream.toList o c tags →
      ∃ comment : DocComment, stream.readComment c = .ok comment ∧
        comment.opener = o ∧ comment.closer = c ∧ comment.tags.map (·.index) = tags ∧
        (∀ tag ∈ comment.tags, ∃ (i : Nat) (token : Token), stream[i]? = some token ∧
          tag = ⟨token.content, i, token.line⟩) ∧
        stream.commentEnd o = .ok (c : Int) ∧
        ∀ name, stream.tagsNamed o name = .ok ((comment.tagsNamed name).map (·.index)) := by
  refine ⟨?_, fun i token hi => plainLinks h hi, fun o c tags hg => hg.views_agree⟩
  intro i token hi hd
  obtain ⟨o, c, tags, hg, ho, hc⟩ := exists_docGroup h hi hd
  exact ⟨o, c, tags, ⟨hg, ho, hc⟩, fun o' c' tags' hg' ho' hc' => hg.unique hg' ho hc ho' hc'⟩

/-- A doc comment with two tags: the first tag is in a group, and that group is read as a comment
that ends where the group does. -/
theorem doc_comments_grouped_two_tags :
    ∃ stream, ofSource "<?php /** @a b\n * @c */".toList = .ok stream ∧
      ∃ (token : Token) (o c : Nat) (tags : List Int),
        stream[4]? = some token ∧ token.kind = .docTag ∧ DocGroup stream.toList o c tags ∧
        o ≤ 4 ∧ 4 ≤ c ∧ ∃ comment : DocComment, stream.readComment c = .ok comment ∧
          comment.tags.map (·.index) = tags ∧ stream.commentEnd o = .ok comment.closer := by
  have htag : (ofSource "<?php /** @a b\n * @c */".toList).toOption.any
      (fun stream => stream[4]?.any (·.kind == .docTag)) = true := by decide +kernel
  obtain ⟨stream, h, hat⟩ := exists_eq_ok_of_any htag
  obtain ⟨token, hi, hk⟩ := (Option.any_eq_true _ _).1 hat
  have hkind : token.kind = .docTag := by simpa using hk
  obtain ⟨hgroups, -, hviews⟩ := doc_comments_grouped h
  obtain ⟨o, c, tags, ⟨hg, ho, hc⟩, -⟩ := hgroups 4 token hi (by rw [hkind]; rfl)
  obtain ⟨comment, hread, -, hcloser, htags, -, hend, -⟩ := hviews o c tags hg
  exact ⟨stream, h, token, o, c, tags, hi, hkind, hg, ho, hc, comment, hread, htags,
    by rw [hend, hcloser]⟩

end Stream

end DocLint
