import DocLint.Proofs.ParameterTags
import DocLint.Proofs.TagLines

/-!
# Empty tags

A `@see`, a `@throws` or the first `@return` of a doc comment is found to be empty if nothing follows it on its line
(`Stream.bareTags`). Where the findings of one code are is read off the checks in order (`Check.placesOf`): all
others have codes of their own (`Stream.tagCodes`).
-/

namespace DocLint

/-! ## The places of a code -/

/-- Where an event finds what has the given code. -/
def Event.placeOf? (code : String) (event : Event) : Option Int :=
  (event.diagnostic?.filter (·.code == code)).map (·.position)

namespace Check

variable {α β : Type} {code : String} {check : Check α} {next : α → Check β}

/-- Where a check finds what has the given code, in order. -/
def placesOf (check : Check α) (code : String) : List Int := check.events.filterMap (Event.placeOf? code)

/-- The check finds nothing but what has one of the given codes. -/
abbrev FindsOnly (codes : List String) (check : Check α) : Prop :=
  check.Each fun event => ∀ diagnostic, event = .found diagnostic → diagnostic.code ∈ codes

theorem placesOf_bind {value : α} (h : check.result = .ok value) :
    (check >>= next).placesOf code = check.placesOf code ++ (next value).placesOf code := by
  rw [bind_of_ok h]
  exact List.filterMap_append

theorem Each.placesOf_eq_nil {codes : List String} (h : check.FindsOnly codes) (hcode : code ∉ codes) :
    check.placesOf code = [] := by
  refine List.filterMap_eq_nil_iff.2 fun event hm => ?_
  cases event with
  | found diagnostic =>
    have hne : diagnostic.code ≠ code := by
      rintro rfl
      exact hcode (h.of_mem _ hm diagnostic rfl)
    simp [Event.placeOf?, Event.diagnostic?, hne]
  | measured => rfl
  | asked => rfl

end Check

namespace Stream

variable {stream : Stream} {codes : List String}

theorem report_findsOnly {code : String} (hcode : code ∈ codes) (severity : Severity) (template : Text)
    (position : Int) (arguments : List Text) :
    (stream.report severity template position code arguments).FindsOnly codes := by
  rw [report]
  split
  · refine .after_quiet fun token _ => Check.each_report ?_
    rintro diagnostic hfound
    obtain rfl := Event.found.inj hfound
    exact hcode
  · exact Check.each_of_nil rfl

theorem reportAll_findsOnly {code : String} (hcode : code ∈ codes) (template : String) (indices : List Int) :
    (stream.reportAll template code indices).FindsOnly codes := by
  induction indices with
  | nil => exact Check.each_of_nil rfl
  | cons index rest ih => exact Check.Each.then (report_findsOnly hcode ..) fun _ => ih

theorem reportError_placesOf {index : Int} (h : stream.Inside index) (template code : String) :
    (stream.reportError template index code).placesOf code = [index] := by
  obtain ⟨i, token, rfl, ht⟩ := h.exists_token
  rw [reportError, report_at ht]
  simp [Check.placesOf, Check.report, Event.placeOf?, Event.diagnostic?]

theorem reportAll_placesOf (template code : String) {indices : List Int}
    (h : ∀ index ∈ indices, stream.Inside index) :
    (stream.reportAll template code indices).placesOf code = indices := by
  induction indices with
  | nil => rfl
  | cons index rest ih =>
    have hfirst := h index List.mem_cons_self
    rw [reportAll, Check.placesOf_bind (reportError_result hfirst ..), reportError_placesOf hfirst,
      ih fun later hm => h later (List.mem_cons_of_mem _ hm)]
    rfl

/-! ## The codes of the checks of tags -/

/-- What the standard checks of tags may find. -/
def tagCodes : List String :=
  ["MissingReturn", "DuplicateReturn", "MissingReturnType", "InvalidThrows", "MissingParamType",
    "MissingParamName", "MissingParamComment", "ExtraParamComment", "ParamNameNoMatch", "TypeHintMismatch",
    "MissingParamTag"]

theorem checkReturn_findsOnly (function comment : Int) :
    (stream.checkReturn function comment).FindsOnly tagCodes := by
  refine .after_quiet fun name _ => ?_
  split
  · exact Check.each_of_nil rfl
  · refine .after_quiet fun stop _ => .after_quiet fun tags _ => ?_
    split
    · exact report_findsOnly (by decide) ..
    · refine Check.Each.then (reportAll_findsOnly (by decide) ..) fun _ => ?_
      split
      · exact report_findsOnly (by decide) ..
      · exact Check.each_of_nil rfl

theorem checkThrows_findsOnly (comment : Int) : (stream.checkThrows comment).FindsOnly tagCodes :=
  .after_quiet fun _ _ => .after_quiet fun _ _ => reportAll_findsOnly (by decide) ..

theorem checkAgainst_findsOnly (tag : Int) (type name : Text) (parameter : Option Parameter) :
    (stream.checkAgainst tag type name parameter).FindsOnly tagCodes := by
  unfold checkAgainst
  split
  · exact report_findsOnly (by decide) ..
  · split
    · exact report_findsOnly (by decide) ..
    · split
      · exact report_findsOnly (by decide) ..
      · exact Check.each_of_nil rfl

theorem checkVariable_findsOnly (tag : Int) (parameter : Option Parameter) (type : Text) (words : List Text) :
    (stream.checkVariable tag parameter type words).FindsOnly tagCodes := by
  unfold checkVariable
  split
  · exact Check.Each.then (report_findsOnly (by decide) ..) fun _ => Check.each_of_nil rfl
  · split
    · refine Check.Each.then (checkAgainst_findsOnly ..) fun _ => ?_
      split
      · exact Check.Each.then (report_findsOnly (by decide) ..) fun _ => Check.each_of_nil rfl
      · exact Check.each_of_nil rfl
    · exact Check.Each.then (report_findsOnly (by decide) ..) fun _ => Check.each_of_nil rfl

theorem checkParameterTag_findsOnly (tag : Int) (parameter : Option Parameter) (content : Option Text) :
    (stream.checkParameterTag tag parameter content).FindsOnly tagCodes := by
  unfold checkParameterTag
  split
  · exact Check.Each.then (report_findsOnly (by decide) ..) fun _ => Check.each_of_nil rfl
  · split
    · exact Check.each_of_nil rfl
    · split
      · exact Check.Each.then (report_findsOnly (by decide) ..) fun _ => checkVariable_findsOnly ..
      · exact checkVariable_findsOnly ..

theorem checkParameterTags_findsOnly (stop : Int) (tags : List Int) (parameters : List Parameter) :
    (stream.checkParameterTags stop tags parameters).FindsOnly tagCodes := by
  induction tags generalizing parameters with
  | nil => exact Check.each_of_nil rfl
  | cons tag rest ih =>
    refine Check.Each.then (checkParameterTag_findsOnly ..) fun _ => ?_
    exact Check.Each.then (ih _) fun _ => Check.each_of_nil rfl

theorem checkUndocumented_findsOnly (stop : Int) (documented : List Text) (parameters : List Parameter) :
    (stream.checkUndocumented stop documented parameters).FindsOnly tagCodes := by
  induction parameters with
  | nil => exact Check.each_of_nil rfl
  | cons parameter rest ih =>
    rw [checkUndocumented]
    split
    · exact Check.Each.then (report_findsOnly (by decide) ..) fun _ => ih
    · exact ih

theorem checkParameters_findsOnly (function comment : Int) :
    (stream.checkParameters function comment).FindsOnly tagCodes := by
  refine .after_quiet fun stop _ => .after_quiet fun parameters _ => .after_quiet fun tags _ => ?_
  exact Check.Each.then (checkParameterTags_findsOnly ..) fun _ => checkUndocumented_findsOnly ..

/-- Behind the `@see` tags, a comment is checked by the standard checks of tags only. -/
theorem afterSees_findsOnly (stream : Stream) (function comment : Int) :
    (stream.askReturn .standard function comment >>= fun _ => stream.checkThrows comment >>= fun _ =>
      stream.askParameters .standard function comment).FindsOnly tagCodes := by
  refine Check.Each.then ?_ fun _ => Check.Each.then (checkThrows_findsOnly _) fun _ => ?_
  · refine .after_quiet fun inherits _ => ?_
    split
    · exact Check.each_of_nil rfl
    · refine .after_quiet fun value _ => ?_
      split
      · exact checkReturn_findsOnly ..
      · exact Check.each_of_nil rfl
  · refine .after_quiet fun inherits _ => ?_
    split
    · exact Check.each_of_nil rfl
    · exact checkParameters_findsOnly ..

/-! ## Tags with nothing behind them -/

/-- The tags of a name, in the comment from `o` to `c`, that nothing follows on their line. -/
def bareTags (stream : Stream) (name : Text) (o c : Nat) : List Nat :=
  (stream.tagsBetween name o c).filter fun tag => (stream.behindTag tag c).isEmpty

theorem inside_of_mem_bareTags {name : Text} {o c : Nat} :
    ∀ index ∈ (stream.bareTags name o c).map fun k : Nat => (k : Int), stream.Inside index := by
  intro index hm
  obtain ⟨tag, htag, rfl⟩ := List.mem_map.1 hm
  exact inside_of_mem_tagsBetween (List.mem_filter.1 htag).1

section Group

variable {source : Text} {o c : Nat} {tags : List Int} (h : ofSource source = .ok stream)
  (hp : Text.ReturnsPaired source) (hg : DocGroup stream.toList o c tags)
include h hp hg

theorem tagContent_isNone {name : Text} {tag : Nat} (hm : tag ∈ stream.tagsBetween name o c) :
    (stream.tagContent tag c).isNone = (stream.behindTag tag c).isEmpty := by
  obtain ⟨⟨ho, hc⟩, token, ht, hk, -⟩ := mem_tagsBetween.1 hm
  have htag : (tag : Int) ∈ tags :=
    (hg.mem_tags tag).2 ⟨tag, token, rfl, ho, hc, by rwa [Array.getElem?_toList], hk⟩
  rw [tagContent_eq_behindTag h hp hg htag, Text.nonempty?]
  split
  · next hempty => rw [hempty]; rfl
  · next hsome => simpa using hsome

/-- The tags without a text are the bare ones. -/
theorem filter_tagContent (name : Text) :
    ((stream.tagsBetween name o c).map fun k : Nat => (k : Int)).filter
        (fun tag => (stream.tagContent tag c).isNone) =
      (stream.bareTags name o c).map fun k : Nat => (k : Int) := by
  rw [List.filter_map, bareTags]
  refine congrArg _ (List.filter_congr fun tag hm => ?_)
  exact tagContent_isNone h hp hg hm

/-- The check of a function whose comment is the group finds the bare `@see` tags. -/
theorem checkFunction_sees {function : Int} (hloc : stream.locateComment function = some c) :
    (stream.checkFunction .standard function).placesOf "EmptySees" =
      (stream.bareTags "@see".toList o c).map fun k : Nat => (k : Int) := by
  obtain ⟨comment, hread, -, hcloser, -, -, -, hnamed⟩ := hg.views_agree
  have hsees : (comment.tagsNamed "@see".toList).map (·.index) =
      (stream.tagsBetween "@see".toList o c).map fun k : Nat => (k : Int) :=
    Except.ok.inj ((hnamed _).symm.trans (tagsNamed_of_docGroup hg))
  have hmeasured : (Check.report (.measured function commentMetric "yes")).result = .ok () := rfl
  have hafter := (stream.afterSees_findsOnly function comment.opener).placesOf_eq_nil
    (by decide : "EmptySees" ∉ tagCodes)
  rw [checkFunction, hloc]
  dsimp only
  rw [checkComment, Check.placesOf_bind hmeasured, hread, Check.quiet_ok_bind, checkSees, hsees, hcloser,
    filter_tagContent h hp hg, Check.placesOf_bind (reportAll_result _ _ inside_of_mem_bareTags),
    reportAll_placesOf _ _ inside_of_mem_bareTags]
  exact (congrArg _ hafter).trans (List.append_nil _)

theorem checkThrows_bare :
    (stream.checkThrows o).result = .ok () ∧
      (stream.checkThrows o).placesOf "InvalidThrows" =
        (stream.bareTags "@throws".toList o c).map fun k : Nat => (k : Int) := by
  rw [checkThrows, hg.commentEnd_eq, Check.quiet_ok_bind, tagsNamed_of_docGroup hg, Check.quiet_ok_bind,
    filter_tagContent h hp hg]
  exact ⟨reportAll_result _ _ inside_of_mem_bareTags, reportAll_placesOf _ _ inside_of_mem_bareTags⟩

/-- The check of `@return`, for any function but a constructor or destructor, finds the first tag if it is bare. -/
theorem checkReturn_bare {function : Int} {name : Option Text} (hname : stream.declaredName function = .ok name) :
    (stream.checkReturn function o).result = .ok () ∧
      (stream.checkReturn function o).placesOf "MissingReturnType" =
        if specialMethods.contains (Text.lower (name.getD [])) then []
        else ((stream.tagsBetween "@return".toList o c).head?.filter fun tag =>
          (stream.behindTag tag c).isEmpty).toList.map fun k : Nat => (k : Int) := by
  rw [checkReturn, hname, Check.quiet_ok_bind]
  by_cases hspecial : specialMethods.contains (Text.lower (name.getD [])) = true
  · rw [if_pos hspecial, if_pos hspecial]
    exact ⟨rfl, rfl⟩
  · rw [if_neg hspecial, if_neg hspecial, hg.commentEnd_eq, Check.quiet_ok_bind, tagsNamed_of_docGroup hg,
      Check.quiet_ok_bind]
    have hbare : ∀ tag ∈ stream.tagsBetween "@return".toList o c,
        (stream.tagContent tag c).isNone = (stream.behindTag tag c).isEmpty := fun tag hm =>
      tagContent_isNone h hp hg hm
    have hinside : ∀ tag ∈ stream.tagsBetween "@return".toList o c, stream.Inside tag := fun tag hm =>
      inside_of_mem_tagsBetween hm
    have hstop : stream.Inside c := by
      have hlt := (CommentAt.doc hg).lt_size
      exact ⟨by omega, by omega⟩
    cases htags : stream.tagsBetween "@return".toList o c with
    | nil =>
      refine ⟨reportError_result hstop .., ?_⟩
      exact (report_findsOnly (List.mem_singleton_self _) ..).placesOf_eq_nil (by decide)
    | cons first more =>
      rw [htags] at hbare hinside
      have hmore : ∀ index ∈ more.map fun k : Nat => (k : Int), stream.Inside index := by
        intro index hm
        obtain ⟨tag, htag, rfl⟩ := List.mem_map.1 hm
        exact hinside tag (List.mem_cons_of_mem _ htag)
      have hduplicates : (stream.reportAll "Only 1 @return tag is allowed in a function comment" "DuplicateReturn"
          (more.map fun k : Nat => (k : Int))).placesOf "MissingReturnType" = [] :=
        (reportAll_findsOnly (List.mem_singleton_self _) ..).placesOf_eq_nil (by decide)
      have hfirst := hinside first List.mem_cons_self
      rw [List.map_cons, List.head?_cons]
      dsimp only
      rw [Check.bind_result, Check.placesOf_bind (reportAll_result _ _ hmore), hduplicates,
        reportAll_result _ _ hmore, hbare first List.mem_cons_self, List.nil_append, Option.filter_some]
      dsimp only [bind, Except.bind]
      split
      · exact ⟨reportError_result hfirst .., reportError_placesOf hfirst ..⟩
      · exact ⟨rfl, rfl⟩

end Group

/-- A function without a doc comment has no empty `@see` tag. -/
theorem Sound.checkFunction_sees_nil (hs : stream.Sound) {function : Int}
    (hno : ∀ closer token, stream.locateComment function = some closer → stream[closer]? = some token →
      token.kind ≠ .docClose) :
    (stream.checkFunction .standard function).placesOf "EmptySees" = [] := by
  rw [checkFunction]
  cases hloc : stream.locateComment function with
  | none =>
    have hmissing : (stream.checkMissing function).FindsOnly ["Missing"] := by
      refine .after_quiet fun name _ => Check.Each.then (report_findsOnly (List.mem_singleton_self _) ..) fun _ => ?_
      exact Check.each_report fun diagnostic hfound => by cases hfound
    exact hmissing.placesOf_eq_nil (by decide)
  | some closer =>
    obtain ⟨o, comment, hreads⟩ := hs.exists_reads hloc
    -- a comment without a closing of its own has no tags
    have htags : comment.tags = [] := by
      have hat := hreads.commentAt
      generalize htags : comment.tags.map (·.index) = tags at hat
      cases hat with
      | plain => exact List.map_eq_nil_iff.1 htags
      | doc hg =>
        obtain ⟨token, ht, hk, -⟩ := hg.closer
        rw [Array.getElem?_toList] at ht
        exact absurd hk (hno closer token hloc ht)
    have hsees : stream.checkSees comment = pure () := by
      rw [checkSees, DocComment.tagsNamed, htags]
      rfl
    have hcheck : (stream.checkComment .standard function closer).FindsOnly tagCodes := by
      refine Check.Each.then (Check.each_report fun diagnostic hfound => by cases hfound) fun _ => ?_
      rw [hreads.read, Check.quiet_ok_bind, hsees, Check.pure_bind]
      exact stream.afterSees_findsOnly function comment.opener
    exact hcheck.placesOf_eq_nil (by decide)

/-- The text of a tag is the rest of its line, in a source in which every carriage return stands before a line feed.

* It is what follows the tag in the source to the end of the line, or to the end of the comment if that comes first,
  without the blanks around it.
* The check of a function finds the `@see` tags of its doc comment that have no such text, in order, and none if it
  has no doc comment.
* The check of `@throws` finds the tags that have no such text, in order.
* The check of `@return` finds the first tag if it has no such text, but not for constructors and destructors.
* The text of a file that is read has no other carriage returns. -/
theorem tag_text_rest_of_line {source : Text} {o c : Nat} {tags : List Int} (h : ofSource source = .ok stream)
    (hp : Text.ReturnsPaired source) (hg : DocGroup stream.toList o c tags) :
    (∀ t : Nat, (t : Int) ∈ tags →
      source = stream.textBefore (t + 1) ++
        (stream.textBetween (t + 1 : Nat) c ++ ("*/".toList ++ stream.textFrom (c + 1))) ∧
      stream.tagContent t c = Text.nonempty? (stream.behindTag t c)) ∧
    (∀ function : Int, stream.locateComment function = some c →
      (stream.checkFunction .standard function).placesOf "EmptySees" =
        (stream.bareTags "@see".toList o c).map fun k : Nat => (k : Int)) ∧
    (∀ function : Int, (∀ closer token, stream.locateComment function = some closer →
        stream[closer]? = some token → token.kind ≠ .docClose) →
      (stream.checkFunction .standard function).placesOf "EmptySees" = []) ∧
    ((stream.checkThrows o).result = .ok () ∧
      (stream.checkThrows o).placesOf "InvalidThrows" =
        (stream.bareTags "@throws".toList o c).map fun k : Nat => (k : Int)) ∧
    (∀ (function : Int) (name : Option Text), stream.declaredName function = .ok name →
      (stream.checkReturn function o).result = .ok () ∧
      (stream.checkReturn function o).placesOf "MissingReturnType" =
        if specialMethods.contains (Text.lower (name.getD [])) then []
        else ((stream.tagsBetween "@return".toList o c).head?.filter fun tag =>
          (stream.behindTag tag c).isEmpty).toList.map fun k : Nat => (k : Int)) ∧
    ∀ (disk : Disk) (path : Path) (text : Text), disk.read path = .ok text → Text.ReturnsPaired text := by
  refine ⟨?_, ?_, ?_, checkThrows_bare h hp hg, ?_, ?_⟩
  · intro t ht
    exact ⟨source_at_tag h hg ht, tagContent_eq_behindTag h hp hg ht⟩
  · intro function hloc
    exact checkFunction_sees h hp hg hloc
  · intro function hno
    exact (sound h).checkFunction_sees_nil hno
  · intro function name hname
    exact checkReturn_bare h hp hg hname
  · intro disk path text hread
    exact Disk.read_returnsPaired hread

/-- A comment with an empty `@see`, a `@throws` with a type and an empty `@return`. -/
def seeAndReturn : Text :=
  "<?php\r\n/** @see\r\n * @throws E \r\n * @return */\r\nfunction f() \x7b return 1; \x7d".toList

theorem tag_text_rest_of_line_see :
    ∃ stream, ofSource seeAndReturn = .ok stream ∧ Text.ReturnsPaired seeAndReturn ∧
      DocGroup stream.toList 2 19 [4, 9, 17] ∧ stream.tagContent 9 19 = some "E".toList ∧
      (stream.checkFunction .standard 21).placesOf "EmptySees" = [4] ∧
      (stream.checkThrows 2).placesOf "InvalidThrows" = [] ∧
      (stream.checkReturn 21 2).placesOf "MissingReturnType" = [17] := by
  have hrun : (ofSource seeAndReturn).toOption.any (fun stream =>
      stream[2]?.any (fun token =>
        token.kind = .docOpen ∧ token.comment.closer = some 19 ∧ token.tags = [4, 9, 17]) &&
      (stream.locateComment 21 == some 19) && (stream.behindTag 9 19 == "E".toList) &&
      (stream.bareTags "@see".toList 2 19 == [4]) && (stream.bareTags "@throws".toList 2 19 == []) &&
      (stream.tagsBetween "@return".toList 2 19 == [17]) && (stream.behindTag 17 19 == []) &&
      decide (stream.declaredName 21 = .ok (some "f".toList))) = true := by decide +kernel
  obtain ⟨stream, h, hat⟩ := exists_eq_ok_of_any hrun
  simp only [Bool.and_eq_true, Option.any_eq_true, decide_eq_true_eq, beq_iff_eq] at hat
  obtain ⟨⟨⟨⟨⟨⟨⟨⟨opener, hopen, hk, hcloser, htags⟩, hloc⟩, htype⟩, hsee⟩, hthrows⟩, hreturn⟩, hbare⟩, hname⟩ := hat
  have hg : DocGroup stream.toList 2 19 [4, 9, 17] := docGroup_at h hopen hk hcloser htags
  have hp : Text.ReturnsPaired seeAndReturn := by decide +kernel
  obtain ⟨htext, hfunction, -, ⟨-, hinvalid⟩, hmissing, -⟩ := tag_text_rest_of_line h hp hg
  refine ⟨stream, h, hp, hg, ?_, ?_, ?_, ?_⟩
  · have hcontent := (htext 9 (by decide)).2
    rw [htype] at hcontent
    exact hcontent
  · rw [hfunction 21 hloc, hsee]
    rfl
  · rw [hthrows] at hinvalid
    exact hinvalid
  · have hfirst := (hmissing 21 _ hname).2
    rw [hreturn, List.head?_cons, Option.filter_some, hbare, if_neg (by decide +kernel)] at hfirst
    exact hfirst

/-- Nothing follows the `@return` tag of a constructor, and it is not found. -/
theorem bare_return_of_constructor :
    ∃ stream, ofSource "<?php\n/** @return */\nfunction __construct() \x7b return 1; \x7d".toList = .ok stream ∧
      DocGroup stream.toList 2 6 [4] ∧ stream.bareTags "@return".toList 2 6 = [4] ∧
      (stream.checkReturn 8 2).result = .ok () ∧ (stream.checkReturn 8 2).placesOf "MissingReturnType" = [] := by
  have hrun : (ofSource "<?php\n/** @return */\nfunction __construct() \x7b return 1; \x7d".toList).toOption.any
      (fun stream =>
        stream[2]?.any (fun token => token.kind = .docOpen ∧ token.comment.closer = some 6 ∧ token.tags = [4]) &&
        (stream.bareTags "@return".toList 2 6 == [4]) && decide ((stream.checkReturn 8 2).result = .ok ()) &&
        ((stream.checkReturn 8 2).placesOf "MissingReturnType" == [])) = true := by decide +kernel
  obtain ⟨stream, h, hat⟩ := exists_eq_ok_of_any hrun
  simp only [Bool.and_eq_true, Option.any_eq_true, decide_eq_true_eq, beq_iff_eq] at hat
  obtain ⟨⟨⟨⟨opener, hopen, hk, hcloser, htags⟩, hbare⟩, hresult⟩, hplaces⟩ := hat
  have hg : DocGroup stream.toList 2 6 [4] := docGroup_at h hopen hk hcloser htags
  exact ⟨stream, h, hg, hbare, hresult, hplaces⟩

end Stream

end DocLint
