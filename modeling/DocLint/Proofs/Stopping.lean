import DocLint.Proofs.Checks
import DocLint.Proofs.InheritDoc
import DocLint.Proofs.ReturnScan
import Mathlib.Data.List.TakeWhile

/-!
# Where a check stops

On the stream of a source, most of what a check relies on is given, and the check of a function stops in
three ways only: the scan of its body meets a closure without a body, the function has no parameter list, or
the text of a `@param` has no word (`Stops`). All three need a comment that is not inherited.
-/

namespace DocLint

/-! ## Findings -/

namespace Stream

variable {stream : Stream} {i : Nat} {token : Token}

theorem report_at (h : stream[i]? = some token) (severity : Severity) (template : Text)
    (code : String) (arguments : List Text) (source : String) :
    stream.report severity template i code arguments source = Check.report (.found {
      position := i, line := token.line, column := token.column
      template, arguments, code, severity, source }) := by
  have hlt := lt_size h
  rw [report, if_pos ⟨by omega, by omega⟩, fetch_at h, Check.quiet_ok_bind]

theorem report_result {index : Int} (h : stream.Inside index) (severity : Severity) (template : Text)
    (code : String) (arguments : List Text) (source : String) :
    (stream.report severity template index code arguments source).result = .ok () := by
  obtain ⟨i, token, rfl, ht⟩ := h.exists_token
  rw [report_at ht]
  rfl

theorem reportError_result {index : Int} (h : stream.Inside index) (template code : String)
    (arguments : List Text) : (stream.reportError template index code arguments).result = .ok () :=
  report_result h ..

theorem reportError_then {α : Type} {index : Int} (h : stream.Inside index) (template code : String)
    (arguments : List Text) (value : α) :
    (stream.reportError template index code arguments >>= fun _ => pure value).result = .ok value := by
  rw [Check.bind_result, reportError_result h]
  rfl

theorem reportAll_result (template code : String) {indices : List Int}
    (h : ∀ index ∈ indices, stream.Inside index) :
    (stream.reportAll template code indices).result = .ok () := by
  induction indices with
  | nil => rfl
  | cons index rest ih =>
    rw [reportAll, Check.bind_result, reportError_result (h index List.mem_cons_self)]
    exact ih fun later hm => h later (List.mem_cons_of_mem _ hm)

theorem declaredName_function (h : stream[i]? = some token) (hk : token.kind = .function) :
    stream.declaredName i =
      match (stream.findNext { kinds := .ampersand :: Kind.silent, exclude := true }
        ((i : Int) + 1)).bind (stream[·]?) with
      | none => .ok none
      | some name =>
        if name.kind == .openParen || name.kind == .openBrace then .ok none
        else .ok (some name.content) := by
  rw [declaredName, fetch_at h]
  simp only [bind, Except.bind, hk]
  rfl

theorem exists_declaredName (h : stream[i]? = some token) (hk : token.kind = .function) :
    ∃ name, stream.declaredName i = .ok name := by
  rw [declaredName_function h hk]
  split
  · exact ⟨none, rfl⟩
  · split
    · exact ⟨none, rfl⟩
    · exact ⟨_, rfl⟩

end Stream

/-! ## Checks that are not stopped -/

theorem Stream.checkMissing_result {stream : Stream} {i : Nat} {token : Token}
    (h : stream[i]? = some token) (hk : token.kind = .function) :
    (stream.checkMissing i).result = .ok () := by
  obtain ⟨name, hname⟩ := exists_declaredName h hk
  rw [checkMissing, hname, Check.quiet_ok_bind, Check.bind_result,
    reportError_result (inside_of_getElem? h)]
  rfl

namespace Reads

variable {stream : Stream} {i o c : Nat} {comment : DocComment} {token : Token}

theorem checkSees_result (h : Reads stream o c comment) :
    (stream.checkSees comment).result = .ok () :=
  Stream.reportAll_result _ _ fun index hm => h.named_inside _ index (List.mem_filter.1 hm).1

theorem checkThrows_result (h : Reads stream o c comment) : (stream.checkThrows o).result = .ok () := by
  rw [Stream.checkThrows, h.commentAt.commentEnd_eq, Check.quiet_ok_bind, h.named,
    Check.quiet_ok_bind]
  exact Stream.reportAll_result _ _ fun index hm => h.named_inside _ index (List.mem_filter.1 hm).1

theorem checkReturn_result (h : Reads stream o c comment) (hi : stream[i]? = some token)
    (hk : token.kind = .function) : (stream.checkReturn i o).result = .ok () := by
  obtain ⟨name, hname⟩ := Stream.exists_declaredName hi hk
  have hinside := h.named_inside "@return".toList
  rw [Stream.checkReturn, hname, Check.quiet_ok_bind]
  split
  · rfl
  · rw [h.commentAt.commentEnd_eq, Check.quiet_ok_bind, h.named, Check.quiet_ok_bind]
    revert hinside
    cases (comment.tagsNamed "@return".toList).map (·.index) with
    | nil => exact fun _ => Stream.reportError_result h.closer_inside ..
    | cons first more =>
      intro hinside
      dsimp only
      rw [Check.bind_result, Stream.reportAll_result _ _ fun index hm =>
        hinside index (List.mem_cons_of_mem _ hm)]
      dsimp only [bind, Except.bind]
      split
      · exact Stream.reportError_result (hinside first List.mem_cons_self) ..
      · rfl

theorem checkUndocumented_result (h : Reads stream o c comment) (documented : List Text)
    (parameters : List Parameter) :
    (stream.checkUndocumented c documented parameters).result = .ok () := by
  induction parameters with
  | nil => rfl
  | cons parameter rest ih =>
    rw [Stream.checkUndocumented]
    split
    · rw [Check.bind_result, Stream.reportError_result h.closer_inside]
      exact ih
    · exact ih

end Reads

/-! ## Parameter lists -/

namespace Stream

variable {stream : Stream} {i : Nat} {token : Token}

theorem Sound.nextIndex_le (hs : stream.Sound) (h : stream[i]? = some token) :
    token.nextIndex i ≤ stream.size := by
  have hlt := lt_size h
  unfold Token.nextIndex
  split
  · next closer hc =>
    have := hs.nested h hc
    split <;> omega
  · omega

/-- Cut at commas, a parameter list only has indices of the stream. -/
theorem Sound.exists_segments (hs : stream.Sound) {stop : Int} (hstop : stop ≤ stream.size)
    (index : Int) (h0 : 0 ≤ index) :
    ∃ segments, stream.segments stop index = .ok segments ∧
      ∀ segment ∈ segments, ∀ inner ∈ segment, stream.Inside inner := by
  rw [segments]
  by_cases hlt : index < stop
  · obtain ⟨i, token, rfl, ht⟩ := (show stream.Inside index from ⟨h0, by omega⟩).exists_token
    rw [dif_pos hlt, fetch_at ht]
    simp only [bind, Except.bind]
    by_cases hk : token.kind = .comma
    · obtain ⟨later, hlater, hin⟩ := hs.exists_segments hstop ((i : Int) + 1) (by omega)
      rw [if_pos (by simpa using hk), hlater]
      refine ⟨[] :: later, rfl, fun segment hm => ?_⟩
      rcases List.mem_cons.1 hm with rfl | hm
      · intro inner hin
        cases hin
      · exact hin segment hm
    · have hnext := token.lt_nextIndex i
      have hle := hs.nextIndex_le ht
      obtain ⟨later, hlater, hin⟩ := hs.exists_segments hstop (token.nextIndex i) (by omega)
      have hfront : ∀ inner ∈ indices i (token.nextIndex i), stream.Inside inner := by
        intro inner hm
        obtain ⟨offset, hoffset, rfl⟩ := List.mem_map.1 hm
        have := List.mem_range.1 hoffset
        exact ⟨by omega, by omega⟩
      rw [if_neg (by simpa using hk), hlater]
      refine ⟨_, rfl, ?_⟩
      cases later with
      | nil =>
        intro segment hm
        obtain rfl := List.mem_singleton.1 hm
        exact hfront
      | cons first more =>
        intro segment hm
        rcases List.mem_cons.1 hm with rfl | hm
        · intro inner hinner
          rcases List.mem_append.1 hinner with hfirst | hmore
          · exact hfront inner hfirst
          · exact hin first List.mem_cons_self inner hmore
        · exact hin segment (List.mem_cons_of_mem _ hm)
  · rw [dif_neg hlt]
    refine ⟨[[]], rfl, fun segment hm => ?_⟩
    obtain rfl := List.mem_singleton.1 hm
    intro inner hinner
    cases hinner
termination_by (stop - index).toNat

theorem exists_parameterFrom (attributeEnd : Int) (hint : Text) {segment : List Int}
    (h : ∀ inner ∈ segment, stream.Inside inner) :
    ∃ parameter, stream.parameterFrom attributeEnd hint segment = .ok parameter := by
  induction segment generalizing attributeEnd hint with
  | nil => exact ⟨none, rfl⟩
  | cons index rest ih =>
    have hrest := fun attributeEnd hint =>
      ih attributeEnd hint fun inner hm => h inner (List.mem_cons_of_mem _ hm)
    obtain ⟨i, token, rfl, ht⟩ := (h index List.mem_cons_self).exists_token
    rw [parameterFrom, fetch_at ht]
    simp only [bind, Except.bind]
    split
    · exact hrest _ _
    · split
      · exact hrest _ _
      · exact ⟨_, rfl⟩
      · exact hrest _ _
      · exact hrest _ _
      · split
        · exact hrest _ _
        · exact hrest _ _

theorem exists_parametersIn {segments : List (List Int)}
    (h : ∀ segment ∈ segments, ∀ inner ∈ segment, stream.Inside inner) :
    ∃ parameters, stream.parametersIn segments = .ok parameters := by
  induction segments with
  | nil => exact ⟨[], rfl⟩
  | cons segment rest ih =>
    obtain ⟨parameter, hp⟩ := exists_parameterFrom (-1) [] (h segment List.mem_cons_self)
    obtain ⟨more, hmore⟩ := ih fun later hm => h later (List.mem_cons_of_mem _ hm)
    rw [parametersIn, hp, hmore]
    exact ⟨_, rfl⟩

/-- A function has parameters to be read if it has a parameter list. -/
theorem Sound.parameters_cases (hs : stream.Sound) (h : stream[i]? = some token)
    (hk : token.kind = .function) :
    (token.parens.opener ≠ none ∧ ∃ parameters, stream.parameters i = .ok parameters) ∨
      (token.parens.opener = none ∧
        stream.parameters i = .error (.broken .noParameterList i)) := by
  rw [Stream.parameters, fetch_at h]
  simp only [bind, Except.bind, hk]
  by_cases hparens : token.parens = {}
  · rw [hparens]
    exact Or.inr ⟨rfl, rfl⟩
  · obtain ⟨o, c, hlink, -, -, hc⟩ := hs.parameters h (Or.inl hk) hparens
    obtain ⟨segments, hsegments, hin⟩ :=
      hs.exists_segments (show (c : Int) ≤ stream.size by omega) ((o : Int) + 1) (by omega)
    obtain ⟨parameters, hp⟩ := exists_parametersIn hin
    rw [hlink]
    refine Or.inl ⟨by simp [Link.between], parameters, ?_⟩
    simp only [Link.between, hsegments]
    exact hp

end Stream

/-! ## Tags without a word -/

theorem Text.words_eq_nil (cuts : Nat) (text : Text) :
    Text.words cuts text = [] ↔ text.all Text.isSpace = true := by
  have hdrop : text.dropWhile isSpace = [] ↔ text.all isSpace = true := by
    rw [List.dropWhile_eq_nil_iff, List.all_eq_true]
  rw [← hdrop]
  unfold words
  split
  · next h => simp [h]
  · next h => simp [h]
  · next h => simp [h]

namespace Stream

variable {stream : Stream} {tag : Int}

/-- Is there a text behind the tag, and is it white space only? -/
def hasBlankText (stream : Stream) (stop tag : Int) : Bool :=
  (stream.tagContent tag stop).any (·.all Text.isSpace)

theorem checkAgainst_result (h : stream.Inside tag) (type name : Text)
    (parameter : Option Parameter) :
    (stream.checkAgainst tag type name parameter).result = .ok () := by
  cases parameter with
  | none => exact reportError_result h ..
  | some parameter =>
    rw [checkAgainst]
    split
    · exact reportError_result h ..
    · split
      · exact report_result h ..
      · rfl

theorem exists_checkVariable (h : stream.Inside tag) (parameter : Option Parameter) (type : Text)
    (words : List Text) :
    ∃ name, (stream.checkVariable tag parameter type words).result = .ok name := by
  cases words with
  | nil => exact ⟨none, reportError_then h ..⟩
  | cons word description =>
    rw [checkVariable]
    split
    · refine ⟨some (bareVariable word), ?_⟩
      rw [Check.bind_result, checkAgainst_result h]
      change Check.result (if description.isEmpty then _ else _) = _
      split
      · exact reportError_then h ..
      · rfl
    · exact ⟨none, reportError_then h ..⟩

/-- A tag stops the check if its text is white space only. -/
theorem checkParameterTag_cases (stop : Int) (h : stream.Inside tag) (parameter : Option Parameter) :
    (stream.hasBlankText stop tag = true ∧
      (stream.checkParameterTag tag parameter (stream.tagContent tag stop)).result =
        .error (.noWord tag)) ∨
      (stream.hasBlankText stop tag = false ∧
        ∃ name, (stream.checkParameterTag tag parameter (stream.tagContent tag stop)).result =
          .ok name) := by
  rw [hasBlankText]
  cases stream.tagContent tag stop with
  | none => exact Or.inr ⟨rfl, none, reportError_then h ..⟩
  | some content =>
    rw [Option.any_some, checkParameterTag]
    cases hwords : Text.words 2 content with
    | nil => exact Or.inl ⟨(Text.words_eq_nil 2 content).1 hwords, rfl⟩
    | cons first rest =>
      have hsome : content.all Text.isSpace = false := by
        rw [← Bool.not_eq_true, ← Text.words_eq_nil 2, hwords]
        simp
      refine Or.inr ⟨hsome, ?_⟩
      dsimp only
      split
      · obtain ⟨name, hname⟩ := exists_checkVariable h parameter [] (first :: rest)
        refine ⟨name, ?_⟩
        rw [Check.bind_result, reportError_result h]
        exact hname
      · exact exists_checkVariable h parameter first rest

/-- The first tag whose text is white space only stops the check of all. -/
theorem checkParameterTags_cases (stop : Int) {tags : List Int} (h : ∀ tag ∈ tags, stream.Inside tag)
    (parameters : List Parameter) :
    (∃ tag, tags.find? (stream.hasBlankText stop) = some tag ∧
      (stream.checkParameterTags stop tags parameters).result = .error (.noWord tag)) ∨
      (tags.find? (stream.hasBlankText stop) = none ∧
        ∃ names, (stream.checkParameterTags stop tags parameters).result = .ok names) := by
  induction tags generalizing parameters with
  | nil => exact Or.inr ⟨rfl, [], rfl⟩
  | cons first rest ih =>
    rw [checkParameterTags, Check.bind_result, List.find?_cons]
    rcases checkParameterTag_cases stop (h first List.mem_cons_self) parameters.head? with
      ⟨hblank, hresult⟩ | ⟨hblank, name, hresult⟩
    · rw [hblank, hresult]
      exact Or.inl ⟨first, rfl, rfl⟩
    · rw [hblank, hresult]
      change (∃ tag, _ ∧ Check.result (_ >>= _) = _) ∨ (_ ∧ ∃ names, Check.result (_ >>= _) = _)
      rw [Check.bind_result]
      rcases ih (fun tag hm => h tag (List.mem_cons_of_mem _ hm)) parameters.tail with
        ⟨tag, hfirst, hrest⟩ | ⟨hnone, names, hrest⟩
      · rw [hrest]
        exact Or.inl ⟨tag, hfirst, rfl⟩
      · rw [hrest]
        exact Or.inr ⟨hnone, _, rfl⟩

end Stream

/-! ## The check of a function -/

/-- The tag is a `@param` of the comment that ends at `c`, and the text that follows it on its line is
white space only. -/
structure BlankParameter (stream : Stream) (c : Nat) (tag : Int) : Prop where
  named : ∃ comment, stream.readComment c = .ok comment ∧
    ∃ entry ∈ comment.tagsNamed "@param".toList, entry.index = tag
  blank : ∃ content, stream.tagContent tag c = some content ∧ content.all Text.isSpace = true

/-- Why the check of the function at `i` stops, if its comment ends at `c` and is not inherited. Where
there is more than one reason, it stops for the first of these, and at the first such tag. -/
inductive Stops (stream : Stream) (i c : Nat) (function : Token) : Fault → Prop where
  /-- The scan of the body meets a closure without a body. -/
  | closure {k : Nat} (h : MeetsBodilessClosure stream i k) :
      Stops stream i c function (.broken .closureWithoutBody k)
  /-- There is no parameter list. -/
  | noParameters (scan : ∀ k, ¬ MeetsBodilessClosure stream i k)
      (h : function.parens.opener = none) :
      Stops stream i c function (.broken .noParameterList i)
  /-- A `@param` has no word. -/
  | blank {tag : Int} (scan : ∀ k, ¬ MeetsBodilessClosure stream i k)
      (parameters : function.parens.opener ≠ none) (h : BlankParameter stream c tag)
      (first : ∀ earlier, BlankParameter stream c earlier → tag ≤ earlier) :
      Stops stream i c function (.noWord tag)

namespace Reads

variable {stream : Stream} {i o c : Nat} {comment : DocComment} {token : Token}

theorem blankParameter_iff (h : Reads stream o c comment) {tag : Int} :
    BlankParameter stream c tag ↔ tag ∈ (comment.tagsNamed "@param".toList).map (·.index) ∧
      stream.hasBlankText c tag = true := by
  rw [Stream.hasBlankText, Option.any_eq_true]
  constructor
  · rintro ⟨⟨comment', hread, hm⟩, hblank⟩
    obtain rfl := Except.ok.inj (h.read.symm.trans hread)
    exact ⟨List.mem_map.2 hm, hblank⟩
  · rintro ⟨hm, hblank⟩
    exact ⟨⟨comment, h.read, List.mem_map.1 hm⟩, hblank⟩

/-- The check of the parameters stops at the first `@param` without a word. -/
theorem checkParameters_cases (h : Reads stream o c comment) {parameters : List Parameter}
    (hp : stream.parameters i = .ok parameters) :
    (∃ tag, BlankParameter stream c tag ∧
      (∀ earlier, BlankParameter stream c earlier → tag ≤ earlier) ∧
      (stream.checkParameters i o).result = .error (.noWord tag)) ∨
    ((∀ tag, ¬ BlankParameter stream c tag) ∧ (stream.checkParameters i o).result = .ok ()) := by
  rw [Stream.checkParameters, h.commentAt.commentEnd_eq, Check.quiet_ok_bind, hp,
    Check.quiet_ok_bind, h.named, Check.quiet_ok_bind, Check.bind_result]
  rcases Stream.checkParameterTags_cases c (h.named_inside "@param".toList) parameters with
    ⟨tag, hfind, hresult⟩ | ⟨hfind, names, hresult⟩
  · obtain ⟨hblank, before, after, hsplit, hbefore⟩ := List.find?_eq_some_iff_append.1 hfind
    have hsorted := h.named_sorted "@param".toList
    rw [hsplit] at hsorted
    refine Or.inl ⟨tag, h.blankParameter_iff.2 ⟨List.mem_of_find?_eq_some hfind, hblank⟩, ?_, ?_⟩
    · intro earlier hearlier
      obtain ⟨hm, hblank'⟩ := h.blankParameter_iff.1 hearlier
      rw [hsplit] at hm
      rcases List.mem_append.1 hm with hm | hm
      · have hnot := hbefore earlier hm
        rw [hblank'] at hnot
        cases hnot
      · rcases List.mem_cons.1 hm with rfl | hm
        · exact Int.le_refl _
        · exact Int.le_of_lt (List.rel_of_pairwise_cons (List.pairwise_append.1 hsorted).2.1 hm)
    · rw [hresult]
      rfl
  · refine Or.inr ⟨fun tag htag => ?_, ?_⟩
    · obtain ⟨hm, hblank⟩ := h.blankParameter_iff.1 htag
      exact List.find?_eq_none.1 hfind tag hm hblank
    · rw [hresult]
      exact h.checkUndocumented_result names parameters

/-- What can stop the check of a comment. -/
theorem checkComment_result (h : Reads stream o c comment) :
    (stream.checkComment .standard i c).result = (do
      (stream.askReturn .standard i o).result
      (stream.askParameters .standard i o).result) := by
  have hthrows : (TagValidator.standard.checkThrows stream i o).result = .ok () := h.checkThrows_result
  rw [Stream.checkComment, h.read, Check.quiet_ok_bind, h.opener]
  simp only [Check.bind_result, h.checkSees_result, hthrows]
  rfl

/-- An inherited comment is only checked for what cannot stop the check. -/
theorem checkComment_inherited (h : Reads stream o c comment)
    (hinherits : stream.inheritsDoc i = .ok true) :
    (stream.checkComment .standard i c).result = .ok () := by
  rw [h.checkComment_result, Stream.askReturn, Stream.askParameters, hinherits]
  rfl

theorem checkComment_own (h : Reads stream o c comment)
    (hinherits : stream.inheritsDoc i = .ok false) (hi : stream[i]? = some token)
    (hk : token.kind = .function) :
    (stream.checkComment .standard i c).result = (do
      let _ ← stream.returnsValue i
      (stream.checkParameters i o).result) := by
  rw [h.checkComment_result, Stream.askReturn, Stream.askParameters, hinherits, Check.quiet_ok_bind,
    Check.quiet_ok_bind, if_neg Bool.false_ne_true, if_neg Bool.false_ne_true]
  cases stream.returnsValue i with
  | error fault => rfl
  | ok value =>
    rw [Check.quiet_ok_bind]
    cases value with
    | true =>
      have hreturn : (TagValidator.standard.checkReturn stream i o).result = .ok () :=
        h.checkReturn_result hi hk
      rw [if_pos rfl, hreturn]
      rfl
    | false => rfl

end Reads

/-- Is there any reason to stop? -/
def HasReason (stream : Stream) (i c : Nat) (function : Token) : Prop :=
  (∃ k, MeetsBodilessClosure stream i k) ∨ function.parens.opener = none ∨
    ∃ tag, BlankParameter stream c tag

theorem Stops.hasReason {stream : Stream} {i c : Nat} {function : Token} {fault : Fault}
    (h : Stops stream i c function fault) : HasReason stream i c function := by
  cases h with
  | closure hmeets => exact Or.inl ⟨_, hmeets⟩
  | noParameters _ hnone => exact Or.inr (Or.inl hnone)
  | blank _ _ hblank => exact Or.inr (Or.inr ⟨_, hblank⟩)

namespace Stream

variable {stream : Stream} {i c : Nat} {function : Token} {fault : Fault}

theorem Sound.stops_unique (hs : stream.Sound) (hi : stream[i]? = some function)
    (hk : function.kind = .function) {other : Fault} (h : Stops stream i c function fault)
    (hother : Stops stream i c function other) : fault = other := by
  cases h with
  | closure hmeets =>
    cases hother with
    | closure hmeets' =>
      have hone := hs.returnsValue_of_meets hi hk hmeets
      exact Except.error.inj (hone.symm.trans (hs.returnsValue_of_meets hi hk hmeets'))
    | noParameters hscan => exact absurd hmeets (hscan _)
    | blank hscan => exact absurd hmeets (hscan _)
  | noParameters hscan hnone =>
    cases hother with
    | closure hmeets => exact absurd hmeets (hscan _)
    | noParameters => rfl
    | blank _ hsome => exact absurd hnone hsome
  | blank hscan hsome hblank hfirst =>
    cases hother with
    | closure hmeets => exact absurd hmeets (hscan _)
    | noParameters _ hnone => exact absurd hnone hsome
    | blank _ _ hblank' hfirst' =>
      rw [Int.le_antisymm (hfirst _ hblank') (hfirst' _ hblank)]

/-- A comment that is not inherited: its check stops for the first reason there is. -/
theorem Sound.checkComment_cases (hs : stream.Sound) (hi : stream[i]? = some function)
    (hk : function.kind = .function) (hinherits : stream.inheritsDoc i = .ok false)
    (hloc : stream.locateComment i = some c) :
    (∃ fault, Stops stream i c function fault ∧
      (stream.checkComment .standard i c).result = .error fault) ∨
    (¬ HasReason stream i c function ∧ (stream.checkComment .standard i c).result = .ok ()) := by
  obtain ⟨o, comment, h⟩ := hs.exists_reads hloc
  rw [h.checkComment_own hinherits hi hk]
  by_cases hmeets : ∃ k, MeetsBodilessClosure stream i k
  · obtain ⟨k, hk'⟩ := hmeets
    refine Or.inl ⟨_, .closure hk', ?_⟩
    rw [hs.returnsValue_of_meets hi hk hk']
    rfl
  · have hscan : ∀ k, ¬ MeetsBodilessClosure stream i k := fun k hk' => hmeets ⟨k, hk'⟩
    obtain ⟨value, hvalue⟩ := (hs.returnsValue_cases hi hk).resolve_right hmeets
    rw [hvalue]
    change (∃ fault, _ ∧ (stream.checkParameters i o).result = _) ∨
      (_ ∧ (stream.checkParameters i o).result = _)
    rcases hs.parameters_cases hi hk with ⟨hsome, parameters, hp⟩ | ⟨hnone, hp⟩
    · rcases h.checkParameters_cases hp with ⟨tag, hblank, hfirst, hresult⟩ | ⟨hno, hresult⟩
      · exact Or.inl ⟨_, .blank hscan hsome hblank hfirst, hresult⟩
      · refine Or.inr ⟨?_, hresult⟩
        rintro (hclosure | hnone | ⟨tag, hblank⟩)
        · exact hmeets hclosure
        · exact hsome hnone
        · exact hno tag hblank
    · refine Or.inl ⟨_, .noParameters hscan hnone, ?_⟩
      rw [checkParameters, h.commentAt.commentEnd_eq, Check.quiet_ok_bind, hp]
      rfl

theorem Sound.checkFunction_cases (hs : stream.Sound) (hi : stream[i]? = some function)
    (hk : function.kind = .function) :
    (∃ c fault, stream.locateComment i = some c ∧ stream.inheritsDoc i = .ok false ∧
      Stops stream i c function fault ∧
      (stream.checkFunction .standard i).result = .error fault) ∨
    ((∀ c, stream.locateComment i = some c → stream.inheritsDoc i = .ok false →
      ¬ HasReason stream i c function) ∧ (stream.checkFunction .standard i).result = .ok ()) := by
  rw [checkFunction]
  cases hloc : stream.locateComment i with
  | none => exact Or.inr ⟨fun c hc => absurd hc (by simp), checkMissing_result hi hk⟩
  | some c =>
    obtain ⟨inherits, hinherits⟩ := hs.exists_inheritsDoc (Nat.le_of_lt (lt_size hi))
    cases inherits with
    | true =>
      obtain ⟨o, comment, hreads⟩ := hs.exists_reads hloc
      refine Or.inr ⟨fun _ _ hown => ?_, hreads.checkComment_inherited hinherits⟩
      rw [hinherits] at hown
      cases hown
    | false =>
      rcases hs.checkComment_cases hi hk hinherits hloc with ⟨fault, hstops, hresult⟩ | ⟨hno, hresult⟩
      · exact Or.inl ⟨c, fault, rfl, hinherits, hstops, hresult⟩
      · refine Or.inr ⟨fun c' hc' _ => ?_, hresult⟩
        obtain rfl := Option.some.inj hc'
        exact hno

/-- The check of a function on the stream of a source stops if and only if the function has a comment, the
comment is not inherited, and the scan of the body meets a closure without a body, there is no parameter
list, or a `@param` has no word. It stops for the first reason there is, and for no other. -/
theorem check_stops_iff {source : Text} (h : ofSource source = .ok stream)
    (hi : stream[i]? = some function) (hk : function.kind = .function) :
    ((∃ fault, (stream.checkFunction .standard i).result = .error fault) ↔
      ∃ c, stream.locateComment i = some c ∧ stream.inheritsDoc i = .ok false ∧
        ((∃ k, MeetsBodilessClosure stream i k) ∨ function.parens.opener = none ∨
          ∃ tag, BlankParameter stream c tag)) ∧
    (∀ fault, (stream.checkFunction .standard i).result = .error fault ↔
      ∃ c, stream.locateComment i = some c ∧ stream.inheritsDoc i = .ok false ∧
        Stops stream i c function fault) ∧
    Defect.closureWithoutBody.message = "closure has no body" ∧
    Defect.noParameterList.message = "function has no parameter list" := by
  refine ⟨?_, fun fault => ?_, rfl, rfl⟩
  · rcases (sound h).checkFunction_cases hi hk with
      ⟨c, fault, hloc, hinherits, hstops, hresult⟩ | ⟨hno, hresult⟩
    · exact ⟨fun _ => ⟨c, hloc, hinherits, hstops.hasReason⟩, fun _ => ⟨fault, hresult⟩⟩
    · rw [hresult]
      constructor
      · rintro ⟨fault, hfault⟩
        cases hfault
      · rintro ⟨c, hloc, hinherits, hreason⟩
        exact absurd hreason (hno c hloc hinherits)
  · rcases (sound h).checkFunction_cases hi hk with
      ⟨c, first, hloc, hinherits, hstops, hresult⟩ | ⟨hno, hresult⟩
    · rw [hresult]
      constructor
      · intro heq
        obtain rfl := Except.error.inj heq
        exact ⟨c, hloc, hinherits, hstops⟩
      · rintro ⟨c', hloc', -, hstops'⟩
        obtain rfl := Option.some.inj (hloc.symm.trans hloc')
        rw [(sound h).stops_unique hi hk hstops hstops']
    · rw [hresult]
      constructor
      · intro hfault
        cases hfault
      · rintro ⟨c, hloc, hinherits, hstops⟩
        exact absurd hstops.hasReason (hno c hloc hinherits)

/-- One function for each reason. -/
def threeStopped : Text :=
  ("<?php\n/** a */\nfunction f() \x7b function(); \x7d\n/** b */\nfunction g;\n" ++
    "/** @param \x0c */\nfunction h() \x7b\x7d").toList

theorem check_stops_iff_three :
    ∃ stream, ofSource threeStopped = .ok stream ∧
      (∃ f, stream[8]? = some f ∧ f.kind = .function ∧ MeetsBodilessClosure stream 8 16) ∧
      (∃ g, stream[29]? = some g ∧ g.kind = .function ∧ g.parens.opener = none) ∧
      ∃ h, stream[42]? = some h ∧ h.kind = .function ∧
        ∃ c, stream.locateComment (42 : Nat) = some c ∧ BlankParameter stream c 36 := by
  have hrun : (ofSource threeStopped).toOption.any (fun stream =>
      [8, 29, 42].all (fun (i : Nat) => stream[i]?.any (·.kind == .function)) &&
      (stream.checkFunction .standard (8 : Nat)).result ==
        .error (.broken .closureWithoutBody (16 : Nat)) &&
      (stream.checkFunction .standard (29 : Nat)).result ==
        .error (.broken .noParameterList (29 : Nat)) &&
      (stream.checkFunction .standard (42 : Nat)).result == .error (.noWord 36)) = true := by
    decide +kernel
  obtain ⟨stream, hsource, hat⟩ := exists_eq_ok_of_any hrun
  simp only [Bool.and_eq_true, beq_iff_eq, List.all_cons, List.all_nil, Option.any_eq_true] at hat
  obtain ⟨⟨⟨⟨⟨f, hf, hkf⟩, ⟨g, hg, hkg⟩, ⟨h, hh, hkh⟩, -⟩, hrf⟩, hrg⟩, hrh⟩ := hat
  refine ⟨stream, hsource, ⟨f, hf, hkf, ?_⟩, ⟨g, hg, hkg, ?_⟩, ⟨h, hh, hkh, ?_⟩⟩
  · obtain ⟨c, -, -, hstops⟩ := ((check_stops_iff hsource hf hkf).2.1 _).1 hrf
    generalize hfault : Fault.broken .closureWithoutBody (16 : Nat) = fault at hstops
    cases hstops with
    | closure hmeets =>
      cases hfault
      exact hmeets
    | noParameters => cases hfault
    | blank => cases hfault
  · obtain ⟨c, -, -, hstops⟩ := ((check_stops_iff hsource hg hkg).2.1 _).1 hrg
    cases hstops with
    | noParameters _ hnone => exact hnone
  · obtain ⟨c, hloc, -, hstops⟩ := ((check_stops_iff hsource hh hkh).2.1 _).1 hrh
    cases hstops with
    | blank _ _ hblank => exact ⟨c, hloc, hblank⟩

end Stream

end DocLint
