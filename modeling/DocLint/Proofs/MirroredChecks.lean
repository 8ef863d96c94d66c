import DocLint.Proofs.Mirror

/-!
# Checks of mirrored streams

The check of a function reports the same in a mirror of its stream, and stops at the same place, if it does:
only the line ends in the arguments of its findings are written as those of the mirror (`Check.spell`).
-/

namespace DocLint

/-- A finding with the ends of lines in its arguments written another way. -/
def Diagnostic.spell (e : LineEnd) (diagnostic : Diagnostic) : Diagnostic :=
  { diagnostic with arguments := diagnostic.arguments.map (Text.spell e) }

def Event.spell (e : LineEnd) : Event → Event
  | found diagnostic => found (diagnostic.spell e)
  | measured position name value => measured position name value
  | asked check function comment => asked check function comment

namespace Check

variable {e : LineEnd} {α α' β β' : Type}

/-- A check with the ends of lines in its findings written another way, and in its result, as `g` does it. -/
def spell (e : LineEnd) (g : α → α') (check : Check α) : Check α' :=
  ⟨check.events.map (Event.spell e), check.result.map g⟩

theorem spell_bind {check : Check α} {mirrored : Check α'} {g : α → α'} {g' : β → β'}
    {next : α → Check β} {next' : α' → Check β'} (h : mirrored = check.spell e g)
    (hnext : ∀ value, next' (g value) = (next value).spell e g') :
    (mirrored >>= next') = (check >>= next).spell e g' := by
  subst h
  cases hr : check.result with
  | error fault =>
    have hr' : (check.spell e g).result = .error fault := by rw [spell, hr]; rfl
    rw [bind_of_error hr, bind_of_error hr']
    rfl
  | ok value =>
    have hr' : (check.spell e g).result = .ok (g value) := by rw [spell, hr]; rfl
    rw [bind_of_ok hr, bind_of_ok hr', hnext value]
    simp only [spell, List.map_append]

theorem spell_quiet {result : Except Fault α} {mirrored : Except Fault α'} {g : α → α'}
    (h : mirrored = result.map g) : quiet mirrored = (quiet result).spell e g := by
  rw [h]
  rfl

/-- A result that has no line ends in it. -/
theorem spell_quiet_same {result mirrored : Except Fault α} (h : mirrored = result) :
    quiet mirrored = (quiet result).spell e id := by
  refine spell_quiet ?_
  rw [h]
  cases result with
  | error fault => rfl
  | ok value => rfl

end Check

namespace Mirrors

variable {e : LineEnd} {stream mirror : Stream} {i : Nat} {token : Token}

/-! ## Findings -/

theorem report (h : Mirrors e stream mirror) {index : Int} (hin : stream.Inside index)
    (severity : Severity) (template : Text) (code : String) (arguments : List Text) (source : String) :
    mirror.report severity template index code (arguments.map (Text.spell e)) source =
      (stream.report severity template index code arguments source).spell e id := by
  obtain ⟨i, token, rfl, ht⟩ := hin.exists_token
  rw [Stream.report_at ht, Stream.report_at (h.token ht)]
  rfl

theorem reportError (h : Mirrors e stream mirror) {index : Int} (hin : stream.Inside index)
    (template code : String) (arguments : List Text) :
    mirror.reportError template index code (arguments.map (Text.spell e)) =
      (stream.reportError template index code arguments).spell e id :=
  h.report hin ..

theorem reportAll (h : Mirrors e stream mirror) (template code : String) {indices : List Int}
    (hin : ∀ index ∈ indices, stream.Inside index) :
    mirror.reportAll template code indices = (stream.reportAll template code indices).spell e id := by
  induction indices with
  | nil => rfl
  | cons index rest ih =>
    rw [Stream.reportAll, Stream.reportAll]
    refine Check.spell_bind (h.reportError (hin index List.mem_cons_self) template code []) fun _ => ?_
    exact ih fun later hm => hin later (List.mem_cons_of_mem _ hm)

theorem checkMissing (h : Mirrors e stream mirror) (hi : stream[i]? = some token)
    (hk : token.kind = .function) : mirror.checkMissing i = (stream.checkMissing i).spell e id := by
  rw [Stream.checkMissing, Stream.checkMissing]
  refine Check.spell_bind (Check.spell_quiet (h.declaredName hi hk)) fun name => ?_
  have hname : [(name.map (Text.spell e)).getD []] = [name.getD []].map (Text.spell e) := by
    cases name with
    | none => rfl
    | some name => rfl
  rw [hname]
  exact Check.spell_bind (h.reportError (Stream.inside_of_getElem? hi) ..) fun _ => rfl

/-! ## Parameters against tags -/

theorem checkAgainst (h : Mirrors e stream mirror) {tag : Int} (hin : stream.Inside tag)
    (type name : Text) (parameter : Option Parameter) :
    mirror.checkAgainst tag (type.spell e) (name.spell e) (parameter.map (·.spell e)) =
      (stream.checkAgainst tag type name parameter).spell e id := by
  cases parameter with
  | none => exact h.reportError hin _ _ []
  | some parameter =>
    simp only [Option.map_some, Stream.checkAgainst, Parameter.spell, ne_eq, Text.spell_inj,
      Text.spell_eq_nil, Text.documents_spell]
    split
    · exact h.reportError hin _ _ [name, parameter.name]
    · split
      · exact h.report hin _ _ _ [parameter.hint, parameter.name, type] _
      · rfl

theorem checkVariable (h : Mirrors e stream mirror) {tag : Int} (hin : stream.Inside tag)
    (parameter : Option Parameter) (type : Text) (words : List Text) :
    mirror.checkVariable tag (parameter.map (·.spell e)) (type.spell e) (words.map (Text.spell e)) =
      (stream.checkVariable tag parameter type words).spell e (Option.map (Text.spell e)) := by
  have hnameless : mirror.reportError "Missing parameter name" tag "MissingParamName" =
      (stream.reportError "Missing parameter name" tag "MissingParamName").spell e id :=
    h.reportError hin _ _ []
  cases words with
  | nil =>
    rw [List.map_nil, Stream.checkVariable, Stream.checkVariable]
    exact Check.spell_bind hnameless fun _ => rfl
  | cons word description =>
    simp only [List.map_cons, Stream.checkVariable, Text.isVariable_spell, Text.bareVariable_spell,
      List.isEmpty_map]
    split
    · refine Check.spell_bind (h.checkAgainst hin ..) fun _ => ?_
      split
      · exact Check.spell_bind (h.reportError hin _ _ []) fun _ => rfl
      · rfl
    · exact Check.spell_bind hnameless fun _ => rfl

theorem checkParameterTag (h : Mirrors e stream mirror) {tag : Int} (hin : stream.Inside tag)
    (parameter : Option Parameter) (content : Option Text) :
    mirror.checkParameterTag tag (parameter.map (·.spell e)) (content.map (Text.spell e)) =
      (stream.checkParameterTag tag parameter content).spell e (Option.map (Text.spell e)) := by
  have htypeless : mirror.reportError "Missing parameter type" tag "MissingParamType" =
      (stream.reportError "Missing parameter type" tag "MissingParamType").spell e id :=
    h.reportError hin _ _ []
  cases content with
  | none => exact Check.spell_bind htypeless fun _ => rfl
  | some content =>
    simp only [Option.map_some, Stream.checkParameterTag, Text.words_spell]
    cases Text.words 2 content with
    | nil => rfl
    | cons first rest =>
      simp only [List.map_cons, Text.isVariable_spell]
      split
      · exact Check.spell_bind htypeless fun _ => h.checkVariable hin parameter [] (first :: rest)
      · exact h.checkVariable hin ..

theorem checkParameterTags (h : Mirrors e stream mirror) {stop : Int} (hstop : stop ≤ stream.size)
    {tags : List Int} (hin : ∀ tag ∈ tags, stream.Inside tag) (parameters : List Parameter) :
    mirror.checkParameterTags stop tags (parameters.map (·.spell e)) =
      (stream.checkParameterTags stop tags parameters).spell e (List.map (Text.spell e)) := by
  induction tags generalizing parameters with
  | nil => rfl
  | cons tag rest ih =>
    have htag := hin tag List.mem_cons_self
    rw [Stream.checkParameterTags, Stream.checkParameterTags, List.head?_map, h.tagContent htag hstop]
    refine Check.spell_bind (h.checkParameterTag htag ..) fun name => ?_
    rw [← List.map_tail]
    refine Check.spell_bind (ih (fun later hm => hin later (List.mem_cons_of_mem _ hm)) _) fun names => ?_
    cases name with
    | none => rfl
    | some name => rfl

theorem checkUndocumented (h : Mirrors e stream mirror) {stop : Int} (hstop : stream.Inside stop)
    (documented : List Text) (parameters : List Parameter) :
    mirror.checkUndocumented stop (documented.map (Text.spell e)) (parameters.map (·.spell e)) =
      (stream.checkUndocumented stop documented parameters).spell e id := by
  induction parameters with
  | nil => rfl
  | cons parameter rest ih =>
    rw [List.map_cons, Stream.checkUndocumented, Stream.checkUndocumented, Parameter.spell,
      Text.contains_map_spell]
    split
    · exact Check.spell_bind (h.reportError hstop _ _ [parameter.name]) fun _ => ih
    · exact ih

end Mirrors

/-! ## The comment of a function -/

/-- The same comment, read in a stream and in its mirror. -/
structure ReadsAlike (stream mirror : Stream) (o c : Nat) (comment mirrored : DocComment) : Prop where
  inStream : Reads stream o c comment
  inMirror : Reads mirror o c mirrored
  named : ∀ name, '\n' ∉ name →
    (mirrored.tagsNamed name).map (·.index) = (comment.tagsNamed name).map (·.index)

namespace Mirrors

variable {e : LineEnd} {stream mirror : Stream} {i o c : Nat} {token : Token}
  {comment mirrored : DocComment}

theorem tagsNamed (hr : ReadsAlike stream mirror o c comment mirrored) {name : Text}
    (hname : '\n' ∉ name) : mirror.tagsNamed o name = stream.tagsNamed o name := by
  rw [hr.inMirror.named, hr.inStream.named, hr.named name hname]

/-- The tags that are followed by nothing. -/
theorem filter_bare (h : Mirrors e stream mirror) (hr : ReadsAlike stream mirror o c comment mirrored)
    (name : Text) :
    (((comment.tagsNamed name).map (·.index)).filter fun tag => (mirror.tagContent tag c).isNone) =
      ((comment.tagsNamed name).map (·.index)).filter fun tag => (stream.tagContent tag c).isNone := by
  have hstop := hr.inStream.closer_inside.2
  refine List.filter_congr fun tag hm => ?_
  rw [h.tagContent (hr.inStream.named_inside name tag hm) (by omega), Option.isNone_map]

theorem checkSees (h : Mirrors e stream mirror) (hr : ReadsAlike stream mirror o c comment mirrored) :
    mirror.checkSees mirrored = (stream.checkSees comment).spell e id := by
  rw [Stream.checkSees, Stream.checkSees, hr.inMirror.closer, hr.inStream.closer,
    hr.named _ (by decide), h.filter_bare hr]
  exact h.reportAll _ _ fun index hm => hr.inStream.named_inside _ index (List.mem_filter.1 hm).1

theorem checkThrows (h : Mirrors e stream mirror) (hr : ReadsAlike stream mirror o c comment mirrored) :
    mirror.checkThrows o = (stream.checkThrows o).spell e id := by
  rw [Stream.checkThrows, Stream.checkThrows, hr.inStream.commentAt.commentEnd_eq,
    hr.inMirror.commentAt.commentEnd_eq, tagsNamed hr (by decide), hr.inStream.named]
  simp only [Check.quiet_ok_bind]
  rw [h.filter_bare hr]
  exact h.reportAll _ _ fun index hm => hr.inStream.named_inside _ index (List.mem_filter.1 hm).1

theorem checkReturn (h : Mirrors e stream mirror) (hr : ReadsAlike stream mirror o c comment mirrored)
    (hi : stream[i]? = some token) (hk : token.kind = .function) :
    mirror.checkReturn i o = (stream.checkReturn i o).spell e id := by
  have hinside := hr.inStream.named_inside "@return".toList
  have hstop := hr.inStream.closer_inside
  rw [Stream.checkReturn, Stream.checkReturn]
  refine Check.spell_bind (Check.spell_quiet (h.declaredName hi hk)) fun name => ?_
  have hspecial : Stream.specialMethods.contains (Text.lower ((name.map (Text.spell e)).getD [])) =
      Stream.specialMethods.contains (Text.lower (name.getD [])) := by
    cases name with
    | none => rfl
    | some name =>
      rw [Option.map_some, Option.getD_some, Option.getD_some, Text.lower_spell]
      exact (Text.contains_map_spell :
        (Stream.specialMethods.map (Text.spell e)).contains (Text.spell e (Text.lower name)) = _)
  rw [hspecial]
  split
  · rfl
  · rw [hr.inStream.commentAt.commentEnd_eq, hr.inMirror.commentAt.commentEnd_eq,
      tagsNamed hr (by decide), hr.inStream.named]
    simp only [Check.quiet_ok_bind]
    revert hinside
    cases (comment.tagsNamed "@return".toList).map (·.index) with
    | nil => exact fun _ => h.reportError hstop _ _ []
    | cons first more =>
      intro hinside
      have hfirst := hinside first List.mem_cons_self
      refine Check.spell_bind (h.reportAll _ _ fun index hm =>
        hinside index (List.mem_cons_of_mem _ hm)) fun _ => ?_
      rw [h.tagContent hfirst (by have := hstop.2; omega), Option.isNone_map]
      split
      · exact h.reportError hfirst _ _ []
      · rfl

theorem checkParameters (h : Mirrors e stream mirror) (hs : stream.Sound)
    (hr : ReadsAlike stream mirror o c comment mirrored) (hi : stream[i]? = some token)
    (hk : token.kind = .function) :
    mirror.checkParameters i o = (stream.checkParameters i o).spell e id := by
  have hstop := hr.inStream.closer_inside
  rw [Stream.checkParameters, Stream.checkParameters, hr.inStream.commentAt.commentEnd_eq,
    hr.inMirror.commentAt.commentEnd_eq, tagsNamed hr (by decide), hr.inStream.named]
  simp only [Check.quiet_ok_bind]
  refine Check.spell_bind (Check.spell_quiet (h.parameters hs hi hk)) fun parameters => ?_
  refine Check.spell_bind (h.checkParameterTags (by have := hstop.2; omega)
    (hr.inStream.named_inside _) parameters) fun documented => ?_
  exact h.checkUndocumented hstop documented parameters

/-! ## The check of a function -/

theorem checkComment (h : Mirrors e stream mirror) (hs : stream.Sound) (hm : mirror.Sound)
    (hr : ReadsAlike stream mirror o c comment mirrored) (hi : stream[i]? = some token)
    (hk : token.kind = .function) :
    mirror.checkComment .standard i c = (stream.checkComment .standard i c).spell e id := by
  have hinherits : Check.quiet (mirror.inheritsDoc i) = (Check.quiet (stream.inheritsDoc i)).spell e id :=
    Check.spell_quiet_same (h.inheritsDoc hs (Nat.le_of_lt (Stream.lt_size hi)))
  have hreturn : mirror.askReturn .standard i o = (stream.askReturn .standard i o).spell e id := by
    refine Check.spell_bind hinherits fun inherits => ?_
    cases inherits with
    | true => rfl
    | false =>
      refine Check.spell_bind (Check.spell_quiet_same (h.returnsValue hs hm hi hk)) fun value => ?_
      cases value with
      | true => exact h.checkReturn hr hi hk
      | false => rfl
  have hparameters : mirror.askParameters .standard i o =
      (stream.askParameters .standard i o).spell e id := by
    refine Check.spell_bind hinherits fun inherits => ?_
    cases inherits with
    | true => rfl
    | false => exact h.checkParameters hs hr hi hk
  rw [Stream.checkComment, Stream.checkComment, hr.inStream.read, hr.inMirror.read]
  have hmeasured : Check.report (.measured i commentMetric "yes") =
      (Check.report (.measured i commentMetric "yes")).spell e id := rfl
  refine Check.spell_bind hmeasured fun _ => ?_
  rw [Check.quiet_ok_bind, Check.quiet_ok_bind, hr.inStream.opener, hr.inMirror.opener]
  refine Check.spell_bind (h.checkSees hr) fun _ => ?_
  refine Check.spell_bind hreturn fun _ => ?_
  exact Check.spell_bind (h.checkThrows hr) fun _ => hparameters

theorem checkFunction (h : Mirrors e stream mirror) (hs : stream.Sound) (hm : mirror.Sound)
    (hi : stream[i]? = some token) (hk : token.kind = .function) :
    mirror.checkFunction .standard i = (stream.checkFunction .standard i).spell e id := by
  rw [Stream.checkFunction, Stream.checkFunction,
    h.locateComment (Nat.le_of_lt (Stream.lt_size hi))]
  cases hloc : stream.locateComment i with
  | none => exact h.checkMissing hi hk
  | some c =>
    obtain ⟨o, comment, hreads⟩ := hs.exists_reads hloc
    obtain ⟨mirrored, hmirrored, hnamed⟩ := h.reads hreads
    exact h.checkComment hs hm ⟨hreads, hmirrored, hnamed⟩ hi hk

end Mirrors

/-! ## The check of a file -/

namespace Mirrors

variable {e : LineEnd} {stream mirror : Stream}

theorem checkAll (h : Mirrors e stream mirror) (hs : stream.Sound) (hm : mirror.Sound)
    {functions : List Nat} (hf : ∀ i ∈ functions, i ∈ stream.functions) :
    mirror.checkAll .standard functions = (stream.checkAll .standard functions).spell e id := by
  induction functions with
  | nil => rfl
  | cons i rest ih =>
    obtain ⟨token, ht, hk⟩ := Stream.mem_functions.1 (hf i List.mem_cons_self)
    refine Check.spell_bind (h.checkFunction hs hm ht hk) fun _ => ?_
    exact ih fun later hlater => hf later (List.mem_cons_of_mem _ hlater)

/-- The functions of the mirror are those of the stream, and then those of its own tokens. -/
theorem functions (h : Mirrors e stream mirror) : mirror.functions = stream.functions ++
    (List.range' stream.size (mirror.size - stream.size)).filter fun index =>
      mirror[index]?.any (·.kind == .function) := by
  have hsplit : List.range mirror.size =
      List.range stream.size ++ List.range' stream.size (mirror.size - stream.size) := by
    have hle := h.size_le
    rw [List.range_eq_range', List.range_eq_range', List.range'_eq_append_iff]
    exact ⟨stream.size, hle, rfl, by rw [Nat.zero_add, Nat.mul_one]⟩
  rw [Stream.functions, hsplit, List.filter_append]
  congr 1
  refine List.filter_congr fun i hi => ?_
  rw [h.getElem? (List.mem_range.1 hi)]
  cases stream[i]? with
  | none => rfl
  | some token => rfl

end Mirrors

end DocLint
