import DocLint.Proofs.Checks

/-!
# What a check reports

The checks of tags report findings and nothing else, at the end of the comment or at its tags, and none of
them says that a comment is missing (`Check.Finds`). The standard checks also give each finding the place of
its token, arguments that fit its template, and the grade that goes with its code (`Check.Reports`). At a
`@param` tag they do not find that a tag is missing, and find that a declared type is not covered only if it is
not (`Stream.TagFinding`). The rule adds empty `@see` tags to these, and the metric at the function
(`checkFunction_each`).
-/

namespace DocLint

/-- A finding of the function comment rule; of these only a type hint that the comment does not cover is a
warning. -/
structure Diagnostic.Graded (diagnostic : Diagnostic) : Prop where
  source : diagnostic.source = "FunctionComment"
  severity : diagnostic.severity = .warning ↔ diagnostic.code = "TypeHintMismatch"

/-- The diagnostic has the place of its token, a message, and the grade of its code. -/
structure Stream.Shows (stream : Stream) (diagnostic : Diagnostic) : Prop where
  place : ∃ token, stream.fetch diagnostic.position = .ok token ∧ diagnostic.line = token.line ∧
    diagnostic.column = token.column
  message : ∃ message, diagnostic.message = .ok message
  graded : diagnostic.Graded

namespace Check

variable {α β : Type} {p q : Event → Prop}

/-- Every event of the check has the property. -/
structure Each (p : Event → Prop) (check : Check α) : Prop where
  of_mem : ∀ event ∈ check.events, p event

/-- The check reports findings only, at the given places, and not that a comment is missing. -/
abbrev Finds (place : Int → Prop) (check : Check α) : Prop :=
  check.Each fun event => ∃ diagnostic, event = .found diagnostic ∧ place diagnostic.position ∧
    diagnostic.code ≠ "Missing"

/-- The check finds what can be shown. -/
abbrev Reports (stream : Stream) (place : Int → Prop) (check : Check α) : Prop :=
  check.Each fun event => ∃ diagnostic, event = .found diagnostic ∧ place diagnostic.position ∧
    diagnostic.code ≠ "Missing" ∧ stream.Shows diagnostic

theorem Each.mono {check : Check α} (h : check.Each p) (hpq : ∀ event, p event → q event) : check.Each q :=
  ⟨fun event hm => hpq event (h.of_mem event hm)⟩

theorem Each.finds {stream : Stream} {place : Int → Prop} {check : Check α}
    (h : check.Reports stream place) : check.Finds place := by
  refine h.mono ?_
  rintro event ⟨diagnostic, rfl, hplace, hcode, -⟩
  exact ⟨diagnostic, rfl, hplace, hcode⟩

theorem Each.bind {check : Check α} {next : α → Check β} (h : check.Each p)
    (hnext : ∀ value, check.result = .ok value → (next value).Each p) : (check >>= next).Each p := by
  refine ⟨fun event hm => ?_⟩
  cases hr : check.result with
  | error fault =>
    rw [bind_of_error hr] at hm
    exact h.of_mem event hm
  | ok value =>
    rw [bind_of_ok hr] at hm
    rcases List.mem_append.1 hm with hm | hm
    · exact h.of_mem event hm
    · exact (hnext value hr).of_mem event hm

/-- A check whatever came before it. -/
theorem Each.then {check : Check α} {next : α → Check β} (h : check.Each p)
    (hnext : ∀ value, (next value).Each p) : (check >>= next).Each p :=
  h.bind fun value _ => hnext value

theorem each_of_nil {check : Check α} (h : check.events = []) : check.Each p :=
  ⟨fun _ hm => absurd (h ▸ hm) List.not_mem_nil⟩

theorem each_report {event : Event} (h : p event) : (report event).Each p := by
  refine ⟨fun other hm => ?_⟩
  obtain rfl := List.mem_singleton.1 hm
  exact h

/-- A check after something was read. -/
theorem Each.after_quiet {result : Except Fault α} {next : α → Check β}
    (hnext : ∀ value, result = .ok value → (next value).Each p) : (quiet result >>= next).Each p :=
  (each_of_nil rfl).bind hnext

end Check

namespace Stream

variable {stream : Stream} {place : Int → Prop}

/-! ## The checks of tags -/

theorem report_each {p : Event → Prop} {position : Int} {template : Text} {arguments : List Text}
    (hm : arguments = [] ∨ ∃ message, fillTemplate template arguments = .ok message) {severity : Severity}
    {code : String} (hs : severity = .warning ↔ code = "TypeHintMismatch")
    (hfound : ∀ diagnostic : Diagnostic, diagnostic.position = position → diagnostic.code = code →
      stream.Shows diagnostic → p (.found diagnostic)) :
    (stream.report severity template position code arguments).Each p := by
  rw [report]
  split
  · refine .after_quiet fun token htoken =>
      Check.each_report (hfound _ rfl rfl ⟨⟨token, htoken, rfl, rfl⟩, ?_, rfl, hs⟩)
    rw [Diagnostic.message]
    split
    · exact ⟨template, rfl⟩
    · next hempty =>
      rcases hm with rfl | hm
      · exact absurd rfl hempty
      · exact hm
  · exact Check.each_of_nil rfl

theorem report_reports {position : Int} {severity : Severity} {code : String} {template : Text}
    {arguments : List Text} (hp : place position) (hc : code ≠ "Missing")
    (hs : severity = .warning ↔ code = "TypeHintMismatch")
    (hm : arguments = [] ∨ ∃ message, fillTemplate template arguments = .ok message) :
    (stream.report severity template position code arguments).Reports stream place := by
  refine report_each hm hs fun diagnostic hposition hcode hshows => ⟨diagnostic, rfl, ?_, ?_, hshows⟩
  · rw [hposition]
    exact hp
  · rw [hcode]
    exact hc

theorem reportError_reports {position : Int} {code template : String} {arguments : List Text}
    (hp : place position) (hc : code ≠ "Missing" ∧ code ≠ "TypeHintMismatch")
    (hm : arguments = [] ∨ ∃ message, fillTemplate template.toList arguments = .ok message) :
    (stream.reportError template position code arguments).Reports stream place :=
  report_reports hp hc.1 (iff_of_false (by decide) hc.2) hm

theorem reportAll_reports {code : String} (hc : code ≠ "Missing" ∧ code ≠ "TypeHintMismatch") (template : String)
    {indices : List Int} (hp : ∀ index ∈ indices, place index) :
    (stream.reportAll template code indices).Reports stream place := by
  induction indices with
  | nil => exact Check.each_of_nil rfl
  | cons index rest ih =>
    refine Check.Each.then (reportError_reports (hp index List.mem_cons_self) hc (Or.inl rfl)) fun _ => ?_
    exact ih fun later hm => hp later (List.mem_cons_of_mem _ hm)

/-- The end and the tags of the comment that starts at an index are at the given places. -/
structure CommentWithin (stream : Stream) (comment : Int) (place : Int → Prop) : Prop where
  stop : ∀ {stop : Int}, stream.commentEnd comment = .ok stop → place stop
  tags : ∀ {name : Text} {tags : List Int}, stream.tagsNamed comment name = .ok tags →
    ∀ tag ∈ tags, place tag

theorem checkReturn_reports {comment : Int} (h : stream.CommentWithin comment place) (function : Int) :
    (stream.checkReturn function comment).Reports stream place := by
  refine .after_quiet fun name _ => ?_
  split
  · exact Check.each_of_nil rfl
  · refine .after_quiet fun stop hstop => .after_quiet fun tags htags => ?_
    split
    · exact reportError_reports (h.stop hstop) (by decide) (Or.inl rfl)
    · next first more =>
      have hplaces := h.tags htags
      refine Check.Each.then (reportAll_reports (by decide) _ fun tag hm => ?_) fun _ => ?_
      · exact hplaces tag (List.mem_cons_of_mem _ hm)
      · split
        · exact reportError_reports (hplaces first List.mem_cons_self) (by decide) (Or.inl rfl)
        · exact Check.each_of_nil rfl

theorem checkThrows_reports {comment : Int} (h : stream.CommentWithin comment place) :
    (stream.checkThrows comment).Reports stream place := by
  refine .after_quiet fun stop _ => .after_quiet fun tags htags => ?_
  exact reportAll_reports (by decide) _ fun tag hm => h.tags htags tag (List.mem_filter.1 hm).1

/-- The declared type of the parameter is not covered by the documented one. -/
def Uncovered (type : Text) (parameter : Option Parameter) : Prop :=
  ∃ declared, parameter = some declared ∧ type ≠ [] ∧ declared.hint ≠ [] ∧ documents type declared.hint = false

/-- A finding at a `@param` tag. It does not say that a comment or a tag is missing, and says only if `uncovered` holds
that a declared type is not covered. -/
structure TagFinding (stream : Stream) (tag : Int) (uncovered : Prop) (diagnostic : Diagnostic) : Prop where
  position : diagnostic.position = tag
  code : diagnostic.code ≠ "Missing" ∧ diagnostic.code ≠ "MissingParamTag"
  hint : diagnostic.code = "TypeHintMismatch" → uncovered
  shows : stream.Shows diagnostic

/-- The check finds what can be found at a tag. -/
abbrev FindsAtTag {α : Type} (stream : Stream) (tag : Int) (uncovered : Prop) (check : Check α) : Prop :=
  check.Each fun event => ∃ diagnostic, event = .found diagnostic ∧ stream.TagFinding tag uncovered diagnostic

section Tag

variable {tag : Int}

theorem FindsAtTag.imp {α : Type} {check : Check α} {one other : Prop} (h : stream.FindsAtTag tag one check)
    (himp : one → other) : stream.FindsAtTag tag other check := by
  refine h.mono ?_
  rintro event ⟨diagnostic, rfl, hposition, hcode, hhint, hshows⟩
  exact ⟨diagnostic, rfl, hposition, hcode, fun heq => himp (hhint heq), hshows⟩

theorem reportError_findsAtTag {uncovered : Prop} {template code : String} {arguments : List Text}
    (hcode : (code ≠ "Missing" ∧ code ≠ "MissingParamTag") ∧ code ≠ "TypeHintMismatch")
    (hm : arguments = [] ∨ ∃ message, fillTemplate template.toList arguments = .ok message) :
    stream.FindsAtTag tag uncovered (stream.reportError template tag code arguments) := by
  refine report_each hm (iff_of_false (by decide) hcode.2) fun diagnostic hposition hsame hshows => ?_
  rw [← hsame] at hcode
  exact ⟨diagnostic, rfl, hposition, hcode.1, fun heq => absurd heq hcode.2, hshows⟩

theorem checkAgainst_findsAtTag (type name : Text) (parameter : Option Parameter) :
    stream.FindsAtTag tag (Uncovered type parameter) (stream.checkAgainst tag type name parameter) := by
  cases parameter with
  | none => exact reportError_findsAtTag (by decide) (Or.inl rfl)
  | some declared =>
    rw [checkAgainst]
    split
    · exact reportError_findsAtTag (by decide) (Or.inr ⟨_, rfl⟩)
    · split
      · next hcover =>
        have huncovered : Uncovered type (some declared) :=
          ⟨declared, rfl, hcover.1, hcover.2.1, by simpa using hcover.2.2⟩
        refine report_each (Or.inr ⟨_, rfl⟩) (by decide) fun diagnostic hposition hsame hshows => ?_
        exact ⟨diagnostic, rfl, hposition, by rw [hsame]; decide, fun _ => huncovered, hshows⟩
      · exact Check.each_of_nil rfl

theorem checkVariable_findsAtTag (parameter : Option Parameter) (type : Text) (words : List Text) :
    stream.FindsAtTag tag (Uncovered type parameter) (stream.checkVariable tag parameter type words) := by
  have hname : ∀ {α : Type} (value : α), stream.FindsAtTag tag (Uncovered type parameter)
      (stream.reportError "Missing parameter name" tag "MissingParamName" >>= fun _ => pure value) := fun value =>
    Check.Each.then (reportError_findsAtTag (by decide) (Or.inl rfl)) fun _ => Check.each_of_nil rfl
  cases words with
  | nil => exact hname none
  | cons word description =>
    rw [checkVariable]
    split
    · refine Check.Each.then (checkAgainst_findsAtTag ..) fun _ => ?_
      split
      · exact Check.Each.then (reportError_findsAtTag (by decide) (Or.inl rfl)) fun _ => Check.each_of_nil rfl
      · exact Check.each_of_nil rfl
    · exact hname none

/-- A declared type is only found uncovered by the first word of a tag's text. -/
theorem checkParameterTag_findsAtTag (parameter : Option Parameter) (content : Option Text) :
    stream.FindsAtTag tag (∃ text type rest, content = some text ∧ Text.words 2 text = type :: rest ∧
      Uncovered type parameter) (stream.checkParameterTag tag parameter content) := by
  cases content with
  | none => exact Check.Each.then (reportError_findsAtTag (by decide) (Or.inl rfl)) fun _ => Check.each_of_nil rfl
  | some text =>
    rw [checkParameterTag]
    split
    · exact Check.each_of_nil rfl
    · next first rest hwords =>
      split
      · refine Check.Each.then (reportError_findsAtTag (by decide) (Or.inl rfl)) fun _ => ?_
        refine (checkVariable_findsAtTag parameter [] (first :: rest)).imp ?_
        rintro ⟨_, -, hne, -⟩
        exact absurd rfl hne
      · refine (checkVariable_findsAtTag parameter first rest).imp fun huncovered => ?_
        exact ⟨text, first, rest, rfl, hwords, huncovered⟩

theorem checkParameterTag_reports (hp : place tag) (parameter : Option Parameter) (content : Option Text) :
    (stream.checkParameterTag tag parameter content).Reports stream place := by
  refine (checkParameterTag_findsAtTag parameter content).mono ?_
  rintro event ⟨diagnostic, rfl, hposition, hcode, -, hshows⟩
  exact ⟨diagnostic, rfl, hposition ▸ hp, hcode.1, hshows⟩

end Tag

theorem checkParameterTags_reports (stop : Int) {tags : List Int} (hp : ∀ tag ∈ tags, place tag)
    (parameters : List Parameter) : (stream.checkParameterTags stop tags parameters).Reports stream place := by
  induction tags generalizing parameters with
  | nil => exact Check.each_of_nil rfl
  | cons tag rest ih =>
    refine Check.Each.then (checkParameterTag_reports (hp tag List.mem_cons_self) ..) fun name => ?_
    refine Check.Each.then (ih (fun later hm => hp later (List.mem_cons_of_mem _ hm)) _) fun _ => ?_
    exact Check.each_of_nil rfl

theorem checkUndocumented_reports {stop : Int} (hp : place stop) (documented : List Text)
    (parameters : List Parameter) : (stream.checkUndocumented stop documented parameters).Reports stream place := by
  induction parameters with
  | nil => exact Check.each_of_nil rfl
  | cons parameter rest ih =>
    rw [checkUndocumented]
    split
    · exact Check.Each.then (reportError_reports hp (by decide) (Or.inr ⟨_, rfl⟩)) fun _ => ih
    · exact ih

theorem checkParameters_reports {comment : Int} (h : stream.CommentWithin comment place) (function : Int) :
    (stream.checkParameters function comment).Reports stream place := by
  refine .after_quiet fun stop hstop => .after_quiet fun parameters _ => .after_quiet fun tags htags => ?_
  refine Check.Each.then (checkParameterTags_reports _ (h.tags htags) _) fun documented => ?_
  exact checkUndocumented_reports (h.stop hstop) ..

end Stream

/-- Whatever the validator checks in the comment that starts at an index, it reports findings only, at the given
places, and not that a comment is missing. -/
structure TagValidator.FindsAt (validator : TagValidator) (stream : Stream) (comment : Int)
    (place : Int → Prop) : Prop where
  returns : ∀ function, (validator.checkReturn stream function comment).Finds place
  throws : ∀ function, (validator.checkThrows stream function comment).Finds place
  parameters : ∀ function, (validator.checkParameters stream function comment).Finds place

theorem TagValidator.standard_findsAt {stream : Stream} {comment : Int} {place : Int → Prop}
    (h : stream.CommentWithin comment place) : standard.FindsAt stream comment place where
  returns function := (Stream.checkReturn_reports h function).finds
  throws _ := (Stream.checkThrows_reports h).finds
  parameters function := (Stream.checkParameters_reports h function).finds

namespace Stream

variable {stream : Stream} {place : Int → Prop} {p : Event → Prop}

/-! ## The check of a function -/

theorem checkSees_reports {comment : DocComment} (hp : ∀ tag ∈ comment.tags, place tag.index) :
    (stream.checkSees comment).Reports stream place := by
  refine reportAll_reports (by decide) _ fun index hm => ?_
  obtain ⟨tag, htag, rfl⟩ := List.mem_map.1 (List.mem_filter.1 hm).1
  exact hp tag (List.mem_filter.1 htag).1

theorem checkSees_finds {comment : DocComment} (hp : ∀ tag ∈ comment.tags, place tag.index) :
    (stream.checkSees comment).Finds place :=
  (checkSees_reports hp).finds

section Comment

variable {comment : Int} (h : stream.CommentWithin comment place)
include h

theorem askReturn_reports (function : Int) :
    (stream.askReturn .standard function comment).Reports stream place := by
  refine .after_quiet fun inherits _ => ?_
  split
  · exact Check.each_of_nil rfl
  · refine .after_quiet fun value _ => ?_
    split
    · exact checkReturn_reports h function
    · exact Check.each_of_nil rfl

theorem askParameters_reports (function : Int) :
    (stream.askParameters .standard function comment).Reports stream place := by
  refine .after_quiet fun inherits _ => ?_
  split
  · exact Check.each_of_nil rfl
  · exact checkParameters_reports h function

end Comment

/-- A property of the metric of a function and of what may be found in its comment holds of all events. -/
theorem checkComment_each (place : Int → Prop) {function closer : Int}
    (hmeasured : p (.measured function commentMetric "yes"))
    (hfound : ∀ diagnostic : Diagnostic, place diagnostic.position → stream.Shows diagnostic →
      p (.found diagnostic))
    (hread : ∀ comment, stream.readComment closer = .ok comment →
      stream.CommentWithin comment.opener place ∧ ∀ tag ∈ comment.tags, place tag.index) :
    (stream.checkComment .standard function closer).Each p := by
  have hreports : ∀ {check : Check Unit}, check.Reports stream place → check.Each p := by
    intro check hcheck
    refine hcheck.mono ?_
    rintro event ⟨diagnostic, rfl, hplace, -, hshows⟩
    exact hfound diagnostic hplace hshows
  refine Check.Each.then (Check.each_report hmeasured) fun _ => .after_quiet fun comment hcomment => ?_
  obtain ⟨hwithin, htags⟩ := hread comment hcomment
  refine Check.Each.then (hreports (checkSees_reports htags)) fun _ => ?_
  refine Check.Each.then (hreports (askReturn_reports hwithin _)) fun _ => ?_
  refine Check.Each.then (hreports (checkThrows_reports hwithin)) fun _ => ?_
  exact hreports (askParameters_reports hwithin _)

theorem checkMissing_each {function : Int} (hmeasured : p (.measured function commentMetric "no"))
    (hfound : ∀ diagnostic : Diagnostic, diagnostic.position = function → stream.Shows diagnostic →
      p (.found diagnostic)) :
    (stream.checkMissing function).Each p := by
  refine .after_quiet fun name _ => Check.Each.then ?_ fun _ => Check.each_report hmeasured
  exact report_each (Or.inr ⟨_, rfl⟩) (by decide) fun diagnostic hposition _ => hfound diagnostic hposition

variable (stream)

/-- The check of a function reports findings, and the metric for this function. -/
theorem checkFunction_each (function : Int) :
    (stream.checkFunction .standard function).Each fun event =>
      (∃ diagnostic, event = .found diagnostic) ∨ ∃ value, event = .measured function commentMetric value := by
  rw [checkFunction]
  split
  · exact checkMissing_each (Or.inr ⟨_, rfl⟩) fun diagnostic _ _ => Or.inl ⟨diagnostic, rfl⟩
  · refine checkComment_each (fun _ => True) (Or.inr ⟨_, rfl⟩) (fun diagnostic _ _ => Or.inl ⟨diagnostic, rfl⟩)
      fun comment _ => ⟨?_, fun _ _ => trivial⟩
    exact ⟨fun _ => trivial, fun _ _ _ => trivial⟩

theorem checkAll_each (functions : List Nat) :
    (stream.checkAll .standard functions).Each fun event =>
      (∃ diagnostic, event = .found diagnostic) ∨
        ∃ i ∈ functions, ∃ value, event = .measured (i : Nat) commentMetric value := by
  induction functions with
  | nil => exact Check.each_of_nil rfl
  | cons i rest ih =>
    refine Check.Each.then ((stream.checkFunction_each i).mono ?_) fun _ => ih.mono ?_
    · rintro event (hfound | hmeasured)
      · exact Or.inl hfound
      · exact Or.inr ⟨i, List.mem_cons_self, hmeasured⟩
    · rintro event (hfound | ⟨j, hj, hmeasured⟩)
      · exact Or.inl hfound
      · exact Or.inr ⟨j, List.mem_cons_of_mem _ hj, hmeasured⟩

theorem checkAll_append (front back : List Nat) :
    stream.checkAll .standard (front ++ back) =
      (stream.checkAll .standard front >>= fun _ => stream.checkAll .standard back) := by
  induction front with
  | nil => exact (Check.pure_bind () fun _ => stream.checkAll .standard back).symm
  | cons i rest ih =>
    rw [List.cons_append, checkAll, checkAll, ih, Check.bind_assoc]

end Stream

end DocLint
