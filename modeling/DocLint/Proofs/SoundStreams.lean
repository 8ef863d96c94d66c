import DocLint.Proofs.DocGroups
import DocLint.Proofs.Scopes
import DocLint.Proofs.Search
import Mathlib.Data.Option.Basic

/-!
# Sound streams

The checks run on any stream, and follow its links wherever they lead. On the stream of a source the
links make sense: parts of doc comments stand in groups, and a link to parameters, to a body or to the end
of a nested bracket leads forwards and to a token of the stream (`Stream.Sound`). What the checks do with
a comment depends on no more than where it starts and ends and where its tags are (`CommentAt`).
-/

namespace DocLint

/-- What the checks rely on, and what the streams of sources give them. -/
structure Stream.Sound (stream : Stream) : Prop where
  group : ∀ {i : Nat} {token : Token}, stream[i]? = some token → token.kind.isDoc = true →
    ∃ o c tags, DocGroup stream.toList o c tags ∧ o ≤ i ∧ i ≤ c
  plain : ∀ {i : Nat} {token : Token}, stream[i]? = some token → token.PlainLinks
  body : ∀ {i : Nat} {token : Token}, stream[i]? = some token →
    token.kind = .function ∨ token.kind = .closure → token.scope ≠ {} →
    ∃ o c, token.scope = .between o c ∧ i < o ∧ o < c ∧ c < stream.size ∧
      stream.accepts { kinds := [.openBrace] } o = true
  parameters : ∀ {i : Nat} {token : Token}, stream[i]? = some token →
    token.kind = .function ∨ token.kind = .closure → token.parens ≠ {} →
    ∃ o c, token.parens = .between o c ∧ i < o ∧ o < c ∧ c < stream.size
  nested : ∀ {i : Nat} {token : Token} {closer : Int}, stream[i]? = some token →
    token.nestedCloser = some closer → (i : Int) < closer ∧ closer < stream.size

/-! ## Streams of sources are sound -/

section Paired

variable {tokens paired : List Token} {i : Nat} {token : Token}

/-- A bracket that opens inside a parameter list is linked to its own end. -/
theorem nestedCloser_of_pair (h : pair tokens = .ok paired) (hi : paired[i]? = some token)
    {closer : Int} (hc : token.nestedCloser = some closer) :
    ∃ c : Nat, closer = c ∧ i < c ∧ c < paired.length := by
  have hopens : token.kind.closedBy.isSome = true ∧ token.bracketLink.closer = some closer := by
    unfold Token.nestedCloser at hc
    split at hc
    · next hk => exact ⟨by rw [hk]; rfl, by rw [Token.bracketLink, hk]; exact hc⟩
    · next hk => exact ⟨by rw [hk]; rfl, by rw [Token.bracketLink, hk]; exact hc⟩
    · next hk => exact ⟨by rw [hk]; rfl, by rw [Token.bracketLink, hk]; exact hc⟩
    · cases hc
  obtain ⟨hopener, hlink⟩ := hopens
  obtain ⟨-, -, -, hall⟩ := exists_pairsOf h
  obtain ⟨c, hcl⟩ := hall.opened i ⟨token.kind, kindsOf_getElem? hi, hopener⟩
  obtain ⟨hlt, opener, last, ho, hl, -, hbetween, -⟩ := (partners_iff h).2 hcl
  obtain rfl : token = opener := Option.some.inj (hi.symm.trans ho)
  have hcloser : closer = c := by
    rw [hbetween] at hlink
    exact (Option.some.inj hlink).symm
  exact ⟨c, hcloser, hlt, (List.getElem?_eq_some_iff.1 hl).1⟩

theorem body_of_pair (h : pair tokens = .ok paired) (hi : paired[i]? = some token)
    (hk : token.kind = .function ∨ token.kind = .closure) (hs : token.scope ≠ {}) :
    ∃ o c, token.scope = .between o c ∧ i < o ∧ o < c ∧ Braces paired o c := by
  obtain ⟨o, c, hscope, hb⟩ := exists_braces_of_scope h hi hs
  have hf := (scope_eq_between h hi (Kind.ownsScope_of_function hk)).1 hscope
  exact ⟨o, c, hscope, hf.walk.le, hb.partners.lt, hb⟩

theorem parameters_of_pair (h : pair tokens = .ok paired) (hi : paired[i]? = some token)
    (hk : token.kind = .function ∨ token.kind = .closure) (hp : token.parens ≠ {}) :
    ∃ o c, token.parens = .between o c ∧ i < o ∧ o < c ∧ c < paired.length := by
  obtain ⟨owned, -, hparens, -⟩ := exists_ownedBy h hi (Kind.ownsScope_of_function hk)
  rw [hparens] at hp
  obtain ⟨o, c, hfound⟩ := link_getD_ne hp
  have hlink : token.parens = .between o c := by rw [hparens, link_getD_eq_between, hfound]
  have hf := (parens_eq_between h hi hk).1 hlink
  have hlt : c < (kindsOf paired).length := hf.closes.closer.lt_length
  rw [kindsOf_length] at hlt
  exact ⟨o, c, hlink, hf.le, hf.closes.lt, hlt⟩

end Paired

theorem Stream.sound {source : Text} {stream : Stream} (h : ofSource source = .ok stream) :
    stream.Sound := by
  have hpair := (ofSource_eq_ok.1 h).2
  constructor
  · intro i token hi hd
    exact exists_docGroup h hi hd
  · intro i token hi
    exact plainLinks h hi
  · intro i token hi hk hs
    rw [← Array.getElem?_toList] at hi
    obtain ⟨o, c, hscope, hio, hoc, hb⟩ := body_of_pair hpair hi hk hs
    obtain ⟨opener, ho, hbrace⟩ := hb.opener
    obtain ⟨closer, hc, -⟩ := hb.closer
    have hlt := (List.getElem?_eq_some_iff.1 hc).1
    refine ⟨o, c, hscope, hio, hoc, by simpa using hlt, accepts_kinds.2 ⟨opener, ?_, ?_⟩⟩
    · rwa [Array.getElem?_toList] at ho
    · simp [hbrace]
  · intro i token hi hk hp
    rw [← Array.getElem?_toList] at hi
    obtain ⟨o, c, hparens, hio, hoc, hlt⟩ := parameters_of_pair hpair hi hk hp
    exact ⟨o, c, hparens, hio, hoc, by simpa using hlt⟩
  · intro i token closer hi hc
    rw [← Array.getElem?_toList] at hi
    obtain ⟨c, rfl, hic, hlt⟩ := nestedCloser_of_pair hpair hi hc
    have hsize : c < stream.size := by simpa using hlt
    exact ⟨by omega, by omega⟩

/-! ## Reading tokens -/

namespace Stream

variable {stream : Stream} {i : Nat} {token : Token}

theorem fetch_at (h : stream[i]? = some token) : stream.fetch (i : Int) = .ok token :=
  fetch_eq_ok (by rwa [Array.getElem?_toList])

theorem token?_at (h : stream[i]? = some token) : stream.token? (i : Int) = some token := by
  have hfetch := fetch_at h
  rw [fetch] at hfetch
  cases htoken : stream.token? (i : Int) with
  | none =>
    rw [htoken] at hfetch
    cases hfetch
  | some other =>
    rw [htoken] at hfetch
    exact congrArg some (Except.ok.inj hfetch)

theorem exists_token_at (h : i < stream.size) : ∃ token, stream[i]? = some token :=
  ⟨stream[i], Array.getElem?_eq_getElem h⟩

theorem lt_size (h : stream[i]? = some token) : i < stream.size :=
  (Array.getElem?_eq_some_iff.1 h).1

theorem getElem?_of_fetch (h : stream.fetch (i : Int) = .ok token) : stream[i]? = some token := by
  rcases Nat.lt_or_ge i stream.size with hlt | hge
  · obtain ⟨found, hfound⟩ := exists_token_at hlt
    rw [fetch_at hfound] at h
    rw [hfound, Except.ok.inj h]
  · have hnone : stream.token? i = none := by
      rw [token?, resolveIndex?, if_pos (Int.natCast_nonneg i), if_neg (by omega)]
      rfl
    rw [fetch, hnone] at h
    cases h

/-- An index that leads to a token of the stream. -/
def Inside (stream : Stream) (index : Int) : Prop := 0 ≤ index ∧ index < stream.size

theorem Inside.exists_token {index : Int} (h : stream.Inside index) :
    ∃ (i : Nat) (token : Token), index = i ∧ stream[i]? = some token := by
  obtain ⟨h0, hlt⟩ := h
  obtain ⟨token, ht⟩ := exists_token_at (show index.toNat < stream.size by omega)
  exact ⟨index.toNat, token, by omega, ht⟩

theorem inside_of_getElem? (h : stream[i]? = some token) : stream.Inside (i : Int) := by
  have := lt_size h
  exact ⟨by omega, by omega⟩

end Stream

/-! ## Comments -/

/-- The kind of a token tells where in a group it stands. -/
theorem DocGroup.kind_at {stream : Stream} {o c j : Nat} {tags : List Int} {token : Token}
    (h : DocGroup stream.toList o c tags) (ho : o ≤ j) (hc : j ≤ c) (ht : stream[j]? = some token) :
    (j = o ∧ token.kind = .docOpen) ∨ (o < j ∧ j < c ∧ token.kind.isDocInner = true) ∨
      (j = c ∧ token.kind = .docClose) := by
  rw [← Array.getElem?_toList] at ht
  rcases Nat.eq_or_lt_of_le ho with rfl | hoj
  · obtain ⟨first, hfirst, hk, -⟩ := h.opener
    obtain rfl := Option.some.inj (ht.symm.trans hfirst)
    exact Or.inl ⟨rfl, hk⟩
  · rcases Nat.eq_or_lt_of_le hc with rfl | hjc
    · obtain ⟨last, hlast, hk, -⟩ := h.closer
      obtain rfl := Option.some.inj (ht.symm.trans hlast)
      exact Or.inr (Or.inr ⟨rfl, hk⟩)
    · obtain ⟨inner, hinner, hk⟩ := h.inner j hoj hjc
      obtain rfl := Option.some.inj (ht.symm.trans hinner)
      exact Or.inr (Or.inl ⟨hoj, hjc, hk⟩)

/-- The comment that starts at `o` and ends at `c`, with its tags: a plain comment or a group. -/
inductive CommentAt (stream : Stream) : (o c : Nat) → (tags : List Int) → Prop where
  /-- One token, without tags. -/
  | plain {c : Nat} {token : Token} (h : stream[c]? = some token) (kind : token.kind = .comment)
      (closer : token.comment.closer = none) (tags : token.tags = []) : CommentAt stream c c []
  /-- A doc comment. -/
  | doc {o c : Nat} {tags : List Int} (h : DocGroup stream.toList o c tags) :
      CommentAt stream o c tags

namespace CommentAt

variable {stream : Stream} {o c : Nat} {tags : List Int}

theorem lt_size (h : CommentAt stream o c tags) : c < stream.size := by
  cases h with
  | plain h => exact Stream.lt_size h
  | doc h =>
    obtain ⟨token, ht, -⟩ := h.closer
    rw [Array.getElem?_toList] at ht
    exact Stream.lt_size ht

theorem tag (h : CommentAt stream o c tags) {index : Int} (hm : index ∈ tags) :
    ∃ (i : Nat) (token : Token), index = i ∧ o < i ∧ i < c ∧ stream[i]? = some token ∧
      token.kind = .docTag := by
  cases h with
  | plain => cases hm
  | doc h =>
    obtain ⟨i, token, hi, ho, hc, ht, hk⟩ := (h.mem_tags index).1 hm
    rw [Array.getElem?_toList] at ht
    exact ⟨i, token, hi, ho, hc, ht, hk⟩

theorem tag_inside (h : CommentAt stream o c tags) {index : Int} (hm : index ∈ tags) :
    stream.Inside index := by
  obtain ⟨i, token, rfl, -, -, ht, -⟩ := h.tag hm
  exact Stream.inside_of_getElem? ht

theorem sorted (h : CommentAt stream o c tags) : tags.Pairwise (· < ·) := by
  cases h with
  | plain => exact .nil
  | doc h => exact h.sorted

theorem opener (h : CommentAt stream o c tags) :
    ∃ token, stream[o]? = some token ∧ token.comment.closer.getD o = (c : Int) ∧
      token.tags = tags := by
  cases h with
  | plain h _ closer tags => exact ⟨_, h, by rw [closer]; rfl, tags⟩
  | doc h =>
    obtain ⟨token, ht, -, hlink, htags⟩ := h.opener
    rw [Array.getElem?_toList] at ht
    exact ⟨token, ht, by rw [hlink]; rfl, htags⟩

theorem commentEnd_eq (h : CommentAt stream o c tags) : stream.commentEnd o = .ok (c : Int) := by
  obtain ⟨token, ht, hcloser, -⟩ := h.opener
  rw [Stream.commentEnd, Stream.fetch_at ht]
  exact congrArg Except.ok hcloser

end CommentAt

/-- `comment` is the comment from `o` to `c`, read from its end; asked at its start, it has the same tags of
any name. -/
structure Reads (stream : Stream) (o c : Nat) (comment : DocComment) : Prop where
  commentAt : CommentAt stream o c (comment.tags.map (·.index))
  read : stream.readComment c = .ok comment
  opener : comment.opener = o
  closer : comment.closer = c
  named : ∀ name, stream.tagsNamed o name = .ok ((comment.tagsNamed name).map (·.index))

theorem CommentAt.exists_reads {stream : Stream} {o c : Nat} {tags : List Int}
    (h : CommentAt stream o c tags) : ∃ comment, Reads stream o c comment := by
  cases h with
  | plain ht kind closer tags =>
    refine ⟨⟨o, o, []⟩, .plain ht kind closer tags, ?_, rfl, rfl, fun name => ?_⟩
    · rw [Stream.readComment, Stream.fetch_at ht]
      simp [bind, Except.bind, pure, Except.pure, kind]
    · rw [Stream.tagsNamed, Stream.fetch_at ht]
      simp [bind, Except.bind, tags, Stream.keepContent, DocComment.tagsNamed]
  | doc h =>
    obtain ⟨comment, hread, ho, hc, rfl, -, -, hnamed⟩ := h.views_agree
    exact ⟨comment, .doc h, hread, ho, hc, hnamed⟩

namespace Reads

variable {stream : Stream} {o c : Nat} {comment : DocComment}

theorem named_sublist (comment : DocComment) (name : Text) :
    ((comment.tagsNamed name).map (·.index)).Sublist (comment.tags.map (·.index)) :=
  List.filter_sublist.map _

theorem named_sorted (h : Reads stream o c comment) (name : Text) :
    ((comment.tagsNamed name).map (·.index)).Pairwise (· < ·) :=
  h.commentAt.sorted.sublist (named_sublist comment name)

theorem named_inside (h : Reads stream o c comment) (name : Text) :
    ∀ index ∈ (comment.tagsNamed name).map (·.index), stream.Inside index := fun _ hm =>
  h.commentAt.tag_inside ((named_sublist comment name).subset hm)

theorem closer_inside (h : Reads stream o c comment) : stream.Inside c := by
  have := h.commentAt.lt_size
  exact ⟨by omega, by omega⟩

end Reads

namespace Stream

variable {stream : Stream} {c : Nat}

/-- What is located is the end of a comment, plain or not. -/
theorem locateComment_kind {function : Int} (h : stream.locateComment function = some c) :
    ∃ token, stream[c]? = some token ∧ (token.kind = .docClose ∨ token.kind = .comment) := by
  simp only [locateComment, Option.bind_eq_bind, Option.bind_eq_some_iff, Option.pure_def,
    Option.some.injEq] at h
  obtain ⟨last, -, token, ht, _, hg, rfl⟩ := h
  refine ⟨token, ht, ?_⟩
  by_cases hclose : token.kind = .docClose
  · exact Or.inl hclose
  · exact Or.inr (by simpa [guard, hclose] using hg)

theorem Sound.exists_commentAt (hs : stream.Sound) {function : Int}
    (h : stream.locateComment function = some c) : ∃ o tags, CommentAt stream o c tags := by
  obtain ⟨token, ht, hk | hk⟩ := locateComment_kind h
  · obtain ⟨o, c', tags, hg, ho, hc⟩ := hs.group ht (by rw [hk]; rfl)
    have hlast : c = c' := by
      rcases hg.kind_at ho hc ht with ⟨-, hkind⟩ | ⟨-, -, hkind⟩ | ⟨heq, -⟩
      · rw [hk] at hkind
        cases hkind
      · rw [hk] at hkind
        cases hkind
      · exact heq
    subst hlast
    exact ⟨o, tags, .doc hg⟩
  · obtain ⟨hcloser, htags⟩ := (hs.plain ht).closer (by rw [hk]; decide)
    exact ⟨c, [], .plain ht hk hcloser htags⟩

theorem Sound.exists_reads (hs : stream.Sound) {function : Int}
    (h : stream.locateComment function = some c) : ∃ o comment, Reads stream o c comment := by
  obtain ⟨o, tags, hat⟩ := hs.exists_commentAt h
  obtain ⟨comment, hreads⟩ := hat.exists_reads
  exact ⟨o, comment, hreads⟩

end Stream

end DocLint
