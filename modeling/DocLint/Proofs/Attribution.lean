import DocLint.Proofs.Events
import DocLint.Proofs.FileRecords
import DocLint.Proofs.InheritDoc

/-!
# Comments and findings belong to one function

Between a function and its comment there are white space, modifiers and at most one remark (`Adjoins`), so no
other function comes between, and no comment belongs to two. The findings of a check stand at the function, if
it has no comment, and otherwise in its comment (`Stream.Sound.finding_position`). Put together, the findings
about a function stand behind the function before it and not behind the function itself, and since the
functions are checked in order, the findings of a file are grouped by function.
-/

namespace DocLint

/-- A comment that ends at `c` is right before the function at `i`. -/
structure Adjoins (stream : Stream) (c i : Nat) : Prop where
  lt : c < i
  between : ∀ {j : Nat} {token : Token}, c < j → j < i → stream[j]? = some token →
    token.kind = .gap ∨ token.kind.isModifier = true ∨ token.kind = .comment
  remark : ∀ {j j' : Nat} {token token' : Token}, c < j → j < i → stream[j]? = some token →
    token.kind = .comment → c < j' → j' < i → stream[j']? = some token' → token'.kind = .comment → j = j'

/-- Behind a comment, the next function is the one it belongs to. -/
theorem Adjoins.le_of_function {stream : Stream} {c i k : Nat} {token : Token}
    (h : Adjoins stream c i) (hck : c < k)
    (ht : stream[k]? = some token) (hk : token.kind = .function) : i ≤ k := by
  by_contra hki
  have hbetween := h.between hck (by omega) ht
  rw [hk] at hbetween
  rcases hbetween with hgap | hmodifier | hcomment
  · cases hgap
  · cases hmodifier
  · cases hcomment

theorem CommentAt.le {stream : Stream} {o c : Nat} {tags : List Int} (h : CommentAt stream o c tags) :
    o ≤ c := by
  cases h with
  | plain => exact Nat.le_refl _
  | doc hg => exact Nat.le_of_lt hg.lt

/-- No token of a comment is a function. -/
theorem CommentAt.not_function {stream : Stream} {o c k : Nat} {tags : List Int} {token : Token}
    (h : CommentAt stream o c tags) (ho : o ≤ k) (hc : k ≤ c) (ht : stream[k]? = some token) :
    token.kind ≠ .function := by
  intro hk
  cases h with
  | plain hplain kind =>
    obtain rfl : k = o := by omega
    obtain rfl := Option.some.inj (ht.symm.trans hplain)
    rw [hk] at kind
    cases kind
  | doc hg =>
    have hkind := hg.kind_at ho hc ht
    rw [hk] at hkind
    rcases hkind with ⟨-, hopen⟩ | ⟨-, -, hinner⟩ | ⟨-, hclose⟩
    · cases hopen
    · cases hinner
    · cases hclose

theorem CommentAt.closer_kind {stream : Stream} {o c : Nat} {tags : List Int} (h : CommentAt stream o c tags) :
    ∃ token, stream[c]? = some token ∧ (token.kind = .comment ∨ token.kind = .docClose) := by
  cases h with
  | plain ht kind => exact ⟨_, ht, Or.inl kind⟩
  | doc hg =>
    obtain ⟨token, ht, hk, -⟩ := hg.closer
    rw [Array.getElem?_toList] at ht
    exact ⟨token, ht, Or.inr hk⟩

/-- The index is that of the end or of a tag of a comment. -/
def DocComment.Marks (comment : DocComment) (index : Int) : Prop :=
  index = comment.closer ∨ ∃ tag ∈ comment.tags, index = tag.index

theorem Reads.commentWithin {stream : Stream} {o c : Nat} {comment : DocComment}
    (h : Reads stream o c comment) : stream.CommentWithin o comment.Marks := by
  constructor
  · intro stop hstop
    rw [h.commentAt.commentEnd_eq] at hstop
    obtain rfl := Except.ok.inj hstop
    exact Or.inl h.closer.symm
  · intro name tags htags index hm
    rw [h.named] at htags
    obtain rfl := Except.ok.inj htags
    obtain ⟨tag, htag, rfl⟩ := List.mem_map.1 ((Reads.named_sublist comment name).subset hm)
    exact Or.inr ⟨tag, htag, rfl⟩

/-- What a comment marks is its end, or a tag in it. -/
theorem Reads.marked {stream : Stream} {o c : Nat} {comment : DocComment} (h : Reads stream o c comment)
    {index : Int} (hm : comment.Marks index) :
    ∃ (k : Nat) (token : Token), index = k ∧ o ≤ k ∧ k ≤ c ∧ stream[k]? = some token ∧
      (token.kind = .comment ∨ token.kind = .docClose ∨ token.kind = .docTag) := by
  rcases hm with rfl | ⟨tag, htag, rfl⟩
  · obtain ⟨token, ht, hk⟩ := h.commentAt.closer_kind
    refine ⟨c, token, h.closer, h.commentAt.le, Nat.le_refl c, ht, ?_⟩
    rcases hk with hk | hk
    · exact Or.inl hk
    · exact Or.inr (Or.inl hk)
  · obtain ⟨k, token, hindex, ho, hc, ht, hk⟩ := h.commentAt.tag (List.mem_map_of_mem htag)
    exact ⟨k, token, hindex, Nat.le_of_lt ho, Nat.le_of_lt hc, ht, Or.inr (Or.inr hk)⟩

namespace Stream

variable {stream : Stream} {i c : Nat}

/-! ## Comments -/

theorem adjoins_of_locateComment (hi : i ≤ stream.size) (h : stream.locateComment i = some c) :
    Adjoins stream c i := by
  obtain ⟨last, hle, hlt, hremark, hbetween⟩ := locateComment_between hi h
  -- a comment behind the one that was located is the remark that was passed over
  have hcomment : ∀ {j : Nat} {token : Token}, c < j → j < i → stream[j]? = some token →
      token.kind = .comment → j = last := by
    intro j token hj hji ht hk
    by_contra hne
    have hother := hbetween j token hj hji hne ht
    rw [hk] at hother
    rcases hother with hgap | hmodifier
    · cases hgap
    · cases hmodifier
  refine ⟨by omega, fun {j token} hj hji ht => ?_, fun hj hji ht hk hj' hji' ht' hk' => ?_⟩
  · by_cases hjl : j = last
    · subst hjl
      obtain ⟨other, hother, hk⟩ := hremark (by omega)
      obtain rfl := Option.some.inj (ht.symm.trans hother)
      exact Or.inr (Or.inr hk)
    · rcases hbetween j token hj hji hjl ht with hgap | hmodifier
      · exact Or.inl hgap
      · exact Or.inr (Or.inl hmodifier)
  · rw [hcomment hj hji ht hk, hcomment hj' hji' ht' hk']

theorem locateComment_inj {i' : Nat} {function function' : Token} (hi : stream[i]? = some function)
    (hk : function.kind = .function) (hi' : stream[i']? = some function') (hk' : function'.kind = .function)
    (h : stream.locateComment i = some c) (h' : stream.locateComment i' = some c) : i = i' := by
  have hown := adjoins_of_locateComment (Nat.le_of_lt (lt_size hi)) h
  have hown' := adjoins_of_locateComment (Nat.le_of_lt (lt_size hi')) h'
  have hle := hown.le_of_function hown'.lt hi' hk'
  have hle' := hown'.le_of_function hown.lt hi hk
  omega

/-! ## Findings -/

/-- The findings about the function at an index, in their order. -/
def findingsAbout (stream : Stream) (i : Nat) : List Diagnostic :=
  (stream.checkFunction .standard i).events.filterMap Event.diagnostic?

theorem mem_findingsAbout {diagnostic : Diagnostic} :
    diagnostic ∈ stream.findingsAbout i ↔
      .found diagnostic ∈ (stream.checkFunction .standard i).events := by
  rw [findingsAbout, List.mem_filterMap]
  constructor
  · rintro ⟨event, hm, hd⟩
    cases event with
    | found other =>
      obtain rfl := Option.some.inj hd
      exact hm
    | measured => cases hd
    | asked => cases hd
  · intro hm
    exact ⟨_, hm, rfl⟩

/-- A finding can be shown. It is about the function, if that has no comment, or else about what its comment
marks. -/
theorem Sound.finding_shows (hs : stream.Sound) {diagnostic : Diagnostic}
    (hd : diagnostic ∈ stream.findingsAbout i) :
    stream.Shows diagnostic ∧ ((stream.locateComment i = none ∧ diagnostic.position = i) ∨
      ∃ o c comment, stream.locateComment i = some c ∧ Reads stream o c comment ∧
        comment.Marks diagnostic.position) := by
  rw [mem_findingsAbout, checkFunction] at hd
  cases hloc : stream.locateComment i with
  | none =>
    rw [hloc] at hd
    have hall : (stream.checkMissing i).Each fun event =>
        ∀ found : Diagnostic, event = .found found → stream.Shows found ∧ found.position = i := by
      refine checkMissing_each ?_ fun found hp hshows other heq => ?_
      · intro found heq
        cases heq
      · obtain rfl := Event.found.inj heq
        exact ⟨hshows, hp⟩
    obtain ⟨hshows, hp⟩ := hall.of_mem _ hd _ rfl
    exact ⟨hshows, Or.inl ⟨rfl, hp⟩⟩
  | some c =>
    rw [hloc] at hd
    obtain ⟨o, comment, hreads⟩ := hs.exists_reads hloc
    have hall : (stream.checkComment .standard i c).Each fun event =>
        ∀ found : Diagnostic, event = .found found → stream.Shows found ∧ comment.Marks found.position := by
      refine checkComment_each comment.Marks ?_ ?_ ?_
      · intro found heq
        cases heq
      · intro found hp hshows other heq
        obtain rfl := Event.found.inj heq
        exact ⟨hshows, hp⟩
      · intro read hread
        obtain rfl := Except.ok.inj (hreads.read.symm.trans hread)
        rw [hreads.opener]
        exact ⟨hreads.commentWithin, fun tag htag => Or.inr ⟨tag, htag, rfl⟩⟩
    obtain ⟨hshows, hmarks⟩ := hall.of_mem _ hd _ rfl
    exact ⟨hshows, Or.inr ⟨o, c, comment, rfl, hreads, hmarks⟩⟩

/-- A finding stands at the function, if that has no comment, or else in its comment. -/
theorem Sound.finding_position (hs : stream.Sound) {diagnostic : Diagnostic}
    (hd : diagnostic ∈ stream.findingsAbout i) :
    (stream.locateComment i = none ∧ diagnostic.position = i) ∨
      ∃ o c comment, stream.locateComment i = some c ∧ Reads stream o c comment ∧
        (o : Int) ≤ diagnostic.position ∧ diagnostic.position ≤ c := by
  obtain ⟨-, hnone | ⟨o, c, comment, hloc, hreads, hmarks⟩⟩ := hs.finding_shows hd
  · exact Or.inl hnone
  · obtain ⟨k, _, hk, ho, hc, -⟩ := hreads.marked hmarks
    exact Or.inr ⟨o, c, comment, hloc, hreads, by omega, by omega⟩

/-- A finding stands behind the function before, and not behind the function it is about. -/
theorem Sound.finding_between (hs : stream.Sound) {function : Token} (hi : stream[i]? = some function)
    {diagnostic : Diagnostic} (hd : diagnostic ∈ stream.findingsAbout i) :
    diagnostic.position ≤ i ∧ ∀ k ∈ stream.functions, diagnostic.position ≤ (k : Nat) → i ≤ k := by
  rcases hs.finding_position hd with ⟨-, hp⟩ | ⟨o, c, comment, hloc, hreads, ho, hc⟩
  · rw [hp]
    exact ⟨Int.le_refl _, fun k _ hle => by omega⟩
  · have hown := adjoins_of_locateComment (Nat.le_of_lt (lt_size hi)) hloc
    have hlt := hown.lt
    refine ⟨by omega, fun k hk hle => ?_⟩
    obtain ⟨token, ht, hkind⟩ := mem_functions.1 hk
    have hck : c < k := by
      by_contra hkc
      exact hreads.commentAt.not_function (by omega) (by omega) ht hkind
    exact hown.le_of_function hck ht hkind

end Stream

namespace SourceFile

variable {source filename : Text} {file : SourceFile}

/-- The findings of a file, function by function. -/
theorem checked_diagnostics (h : ofSource source filename = .ok file) {checked : SourceFile}
    (hc : file.checked = .ok checked) :
    checked.diagnostics = file.stream.functions.flatMap file.stream.findingsAbout := by
  obtain ⟨stream, -, rfl⟩ := ofSource_eq_ok.1 h
  obtain ⟨hok, rfl⟩ := checked_eq_ok.1 hc
  obtain ⟨hevents, -⟩ := Stream.checkAll_of_ok hok
  rw [foldl_after_diagnostics, Stream.checkFunctions, hevents, List.filterMap_flatMap]
  rfl

/-- A comment belongs to one function, with only white space, modifiers and at most one remark in between. The
findings about a function stand at it or in its comment, with no other function in between. So the findings of
a file come function by function, those about a function behind the function before it. -/
theorem findings_attributed (h : ofSource source filename = .ok file) :
    (∀ i ∈ file.stream.functions, ∀ c, file.stream.locateComment (i : Nat) = some c →
      Adjoins file.stream c i ∧
        ∀ i' ∈ file.stream.functions, file.stream.locateComment (i' : Nat) = some c → i' = i) ∧
    (∀ i ∈ file.stream.functions, ∀ diagnostic ∈ file.stream.findingsAbout i,
      (diagnostic.position = (i : Nat) ∨ ∃ c comment, file.stream.locateComment (i : Nat) = some c ∧
        file.stream.readComment c = .ok comment ∧ comment.opener ≤ diagnostic.position ∧
        diagnostic.position ≤ comment.closer) ∧
      ∀ k ∈ file.stream.functions, diagnostic.position ≤ (k : Nat) → k ≤ i → k = i) ∧
    ∀ checked, file.checked = .ok checked →
      checked.diagnostics = file.stream.functions.flatMap file.stream.findingsAbout ∧
      file.stream.functions.Pairwise (· < ·) ∧
      ∀ i ∈ file.stream.functions, ∀ diagnostic ∈ file.stream.findingsAbout i,
        diagnostic.position ≤ (i : Nat) ∧
          ∀ k ∈ file.stream.functions, k < i → (k : Nat) < diagnostic.position := by
  obtain ⟨stream, hstream, hfile⟩ := ofSource_eq_ok.1 h
  have hs : file.stream.Sound := by
    rw [hfile]
    exact Stream.sound hstream
  refine ⟨fun i hi c hloc => ?_, fun i hi diagnostic hd => ?_, fun checked hc => ?_⟩
  · obtain ⟨function, ht, hk⟩ := Stream.mem_functions.1 hi
    refine ⟨Stream.adjoins_of_locateComment (Nat.le_of_lt (Stream.lt_size ht)) hloc, fun i' hi' hloc' => ?_⟩
    obtain ⟨function', ht', hk'⟩ := Stream.mem_functions.1 hi'
    exact Stream.locateComment_inj ht' hk' ht hk hloc' hloc
  · obtain ⟨function, ht, -⟩ := Stream.mem_functions.1 hi
    obtain ⟨-, hnone⟩ := hs.finding_between ht hd
    refine ⟨?_, fun k hk hp hki => Nat.le_antisymm hki (hnone k hk hp)⟩
    rcases hs.finding_position hd with ⟨-, hp⟩ | ⟨o, c, comment, hloc, hreads, hp⟩
    · exact Or.inl hp
    · rw [← hreads.opener, ← hreads.closer] at hp
      exact Or.inr ⟨c, comment, hloc, hreads.read, hp⟩
  · refine ⟨checked_diagnostics h hc, file.stream.functions_sorted, fun i hi diagnostic hd => ?_⟩
    obtain ⟨function, ht, -⟩ := Stream.mem_functions.1 hi
    obtain ⟨hle, hnone⟩ := hs.finding_between ht hd
    refine ⟨hle, fun k hk hki => ?_⟩
    by_contra hp
    have := hnone k hk (by omega)
    omega

/-- A function without a comment, and one with a comment, a modifier and a remark before it. -/
theorem findings_attributed_two :
    ∃ file checked,
      ofSource ("<?php function a() \x7b\x7d /** @param $x */ final /* c */ " ++
        "function b($y) \x7b\x7d").toList [] = .ok file ∧
      file.checked = .ok checked ∧ file.stream.functions = [2, 23] ∧
      file.stream.locateComment (23 : Nat) = some 17 ∧ Adjoins file.stream 17 23 ∧
      checked.diagnostics.map (·.position) = [2, 13, 13, 13, 17] ∧
      checked.diagnostics = file.stream.findingsAbout 2 ++ file.stream.findingsAbout 23 ∧
      ∀ diagnostic ∈ file.stream.findingsAbout 23, 2 < diagnostic.position ∧ diagnostic.position ≤ 23 := by
  have hrun : (ofSource ("<?php function a() \x7b\x7d /** @param $x */ final /* c */ " ++
      "function b($y) \x7b\x7d").toList []).toOption.any (fun file =>
        file.stream.functions == [2, 23] && file.stream.locateComment (23 : Nat) == some 17 &&
        file.checked.toOption.any fun checked =>
          checked.diagnostics.map (·.position) == [2, 13, 13, 13, 17]) = true := by
    decide +kernel
  obtain ⟨file, h, hrun⟩ := exists_eq_ok_of_any hrun
  obtain ⟨hat, hrun⟩ := Bool.and_eq_true_iff.1 hrun
  obtain ⟨checked, hc, hpositions⟩ := exists_eq_ok_of_any hrun
  simp only [Bool.and_eq_true, beq_iff_eq] at hat hpositions
  obtain ⟨hfunctions, hloc⟩ := hat
  obtain ⟨hcomments, -, hgroups⟩ := findings_attributed h
  obtain ⟨hall, -, hbetween⟩ := hgroups checked hc
  have hmem : 23 ∈ file.stream.functions := by
    rw [hfunctions]
    decide
  have hfirst : 2 ∈ file.stream.functions := by
    rw [hfunctions]
    decide
  refine ⟨file, checked, h, hc, hfunctions, hloc, (hcomments 23 hmem 17 hloc).1, hpositions, ?_, ?_⟩
  · rw [hall, hfunctions]
    simp
  · intro diagnostic hd
    obtain ⟨hle, hlt⟩ := hbetween 23 hmem diagnostic hd
    exact ⟨hlt 2 hfirst (by decide), hle⟩

end SourceFile

end DocLint
