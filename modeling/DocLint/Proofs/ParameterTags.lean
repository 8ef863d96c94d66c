import DocLint.Proofs.Events
import DocLint.Proofs.LineEnds
import DocLint.Proofs.Results
import DocLint.Proofs.Stopping
import Mathlib.Data.List.Sort
import Mathlib.Data.Set.List

/-!
# Findings about `@param` tags

The check of a comment takes its `@param` tags in order, each against the parameter at the same place, and keeps the
names that the tags have. What it finds at one tag depends on that tag and that parameter only
(`checkParameterTags_of_ok`), and is nothing exactly if the tag describes the parameter (`Describes`). Behind these
findings are those about the parameters that no tag names, at the end of the comment (`checkUndocumented_events`).

If the names of the parameters differ, tags that describe the first parameters one by one leave a further parameter
without a name among the tags. So no findings at all mean that there are as many tags as parameters.
-/

namespace DocLint

/-! ## Words -/

namespace Text

theorem words_length_le (cuts : Nat) (text : Text) : (words cuts text).length ≤ cuts + 1 := by
  induction cuts generalizing text with
  | zero =>
    rw [words_zero]
    split <;> simp
  | succ cuts ih =>
    rw [words_succ]
    split
    · simp
    · simpa using ih _

theorem ne_nil_of_mem_words {cuts : Nat} {text word : Text} (h : word ∈ words cuts text) : word ≠ [] := by
  induction cuts generalizing text with
  | zero =>
    rw [words_zero] at h
    split at h
    · cases h
    · next hne =>
      obtain rfl := List.mem_singleton.1 h
      simpa using hne
  | succ cuts ih =>
    rw [words_succ] at h
    split at h
    · cases h
    · next hne =>
      rcases List.mem_cons.1 h with rfl | h
      · -- the first character left is not white space, so the first word has it
        have hdrop : text.dropWhile isSpace ≠ [] := by simpa using hne
        have hhead := List.head_dropWhile_not isSpace hdrop
        rw [← List.cons_head_tail hdrop, List.takeWhile_cons_of_pos (by simpa using hhead)]
        exact List.cons_ne_nil _ _
      · exact ih h

/-- Two cuts make three words at most, so what follows two words is one word. -/
theorem exists_third_word {text first second : Text} {rest : List Text}
    (h : words 2 text = first :: second :: rest) (hne : rest ≠ []) : ∃ third, rest = [third] ∧ third ≠ [] := by
  have hlength := words_length_le 2 text
  rw [h, List.length_cons, List.length_cons] at hlength
  have hpos := List.length_pos_of_ne_nil hne
  obtain ⟨third, rfl⟩ : ∃ third, rest = [third] := List.length_eq_one_iff.1 (by omega)
  exact ⟨third, rfl, ne_nil_of_mem_words (by rw [h]; simp)⟩

end Text

/-! ## The tags of a comment -/

namespace Stream

/-- The tags with a given name between the start and the end of a comment. -/
def tagsBetween (stream : Stream) (name : Text) (o c : Nat) : List Nat :=
  (List.range' (o + 1) (c - (o + 1))).filter fun k =>
    stream[k]?.any fun token => token.kind == .docTag && token.content == name

variable {stream : Stream} {name : Text} {o c : Nat}

theorem mem_tagsBetween {k : Nat} : k ∈ stream.tagsBetween name o c ↔
    (o < k ∧ k < c) ∧ ∃ token, stream[k]? = some token ∧ token.kind = .docTag ∧ token.content = name := by
  rw [tagsBetween, List.mem_filter, List.mem_range'_1, Option.any_eq_true]
  simp only [Bool.and_eq_true, beq_iff_eq]
  constructor
  · rintro ⟨hrange, htoken⟩
    exact ⟨by omega, htoken⟩
  · rintro ⟨hrange, htoken⟩
    exact ⟨by omega, htoken⟩

theorem tagsBetween_sorted : (stream.tagsBetween name o c).Pairwise (· < ·) :=
  (List.pairwise_lt_range' ..).filter _

theorem inside_of_mem_tagsBetween {tag : Nat} (h : tag ∈ stream.tagsBetween name o c) : stream.Inside tag := by
  obtain ⟨-, token, ht, -⟩ := mem_tagsBetween.1 h
  exact inside_of_getElem? ht

/-- Keeping the indices of a text, where there are tokens. -/
theorem keepContent_eq_filter {indices : List Int} (h : ∀ index ∈ indices, stream.Inside index) :
    stream.keepContent name indices =
      .ok (indices.filter fun index => stream[index.toNat]?.any (·.content == name)) := by
  induction indices with
  | nil => rfl
  | cons index rest ih =>
    obtain ⟨k, token, rfl, ht⟩ := (h index List.mem_cons_self).exists_token
    have hrest := ih fun later hm => h later (List.mem_cons_of_mem _ hm)
    rw [keepContent, fetch_at ht, hrest, List.filter_cons, Int.toNat_natCast, ht]
    rfl

/-- The tags of a name in a doc comment are all those between its ends. -/
theorem tagsNamed_of_docGroup {tags : List Int} (h : DocGroup stream.toList o c tags) :
    stream.tagsNamed o name = .ok ((stream.tagsBetween name o c).map fun k : Nat => (k : Int)) := by
  have hinside : ∀ index ∈ tags, stream.Inside index := by
    intro index hm
    obtain ⟨k, token, rfl, ht⟩ := h.exists_token hm
    exact inside_of_getElem? (by rwa [← Array.getElem?_toList])
  rw [h.tagsNamed_eq, keepContent_eq_filter hinside]
  -- both lists increase, so they are equal if they have the same members
  refine congrArg _ (List.Pairwise.eq_of_mem_iff (h.sorted.filter _) ?_ fun index => ?_)
  · rw [List.pairwise_map]
    exact tagsBetween_sorted.imp Int.ofNat_lt.2
  · rw [List.mem_filter, List.mem_map, h.mem_tags, Option.any_eq_true]
    constructor
    · rintro ⟨⟨k, token, rfl, ho, hc, ht, hk⟩, other, hother, hname⟩
      rw [Array.getElem?_toList] at ht
      obtain rfl : token = other := Option.some.inj (ht.symm.trans hother)
      exact ⟨k, mem_tagsBetween.2 ⟨⟨ho, hc⟩, token, ht, hk, eq_of_beq hname⟩, rfl⟩
    · rintro ⟨k, hk, rfl⟩
      obtain ⟨⟨ho, hc⟩, token, ht, hkind, hname⟩ := mem_tagsBetween.1 hk
      exact ⟨⟨k, token, rfl, ho, hc, by rwa [Array.getElem?_toList], hkind⟩, token, ht, beq_iff_eq.2 hname⟩

/-- Where a token stands, a comment may be asked for: it ends in the stream, and its tags are those between its
ends. Only the opening of a doc comment has any. -/
theorem exists_tagsNamed {source : Text} {first : Token} (h : ofSource source = .ok stream)
    (ho : stream[o]? = some first) (name : Text) :
    ∃ (c : Nat) (last : Token), stream[c]? = some last ∧ stream.commentEnd o = .ok (c : Int) ∧
      stream.tagsNamed o name = .ok ((stream.tagsBetween name o c).map fun k : Nat => (k : Int)) := by
  by_cases hk : first.kind = .docOpen
  · obtain ⟨o', c, tags, hgroup, hle, hge⟩ := exists_docGroup h ho (by rw [hk]; rfl)
    obtain rfl : o = o' := by
      rcases hgroup.kind_at hle hge ho with ⟨heq, -⟩ | ⟨-, -, hinner⟩ | ⟨-, hclose⟩
      · exact heq
      · rw [hk] at hinner
        cases hinner
      · rw [hk] at hclose
        cases hclose
    obtain ⟨last, hlast, -⟩ := hgroup.closer
    exact ⟨c, last, by rwa [← Array.getElem?_toList], hgroup.commentEnd_eq, tagsNamed_of_docGroup hgroup⟩
  · obtain ⟨hcloser, htags⟩ := (plainLinks h ho).closer hk
    refine ⟨o, first, ho, ?_, ?_⟩
    · rw [commentEnd, fetch_at ho]
      simp [bind, Except.bind, pure, Except.pure, hcloser]
    · have hnone : stream.tagsBetween name o o = [] := by simp [tagsBetween]
      rw [tagsNamed, fetch_at ho, hnone]
      simp [bind, Except.bind, htags, keepContent]

end Stream

/-! ## One tag -/

/-- The name that a text gives: its first word if that is a variable, else its second one. -/
def nameIn? (text : Text) : Option Text :=
  (((Text.words 2 text).take 2).find? isVariable).map bareVariable

namespace Stream

/-- The name that a tag gives, in a comment that ends at `stop`. -/
def tagName? (stream : Stream) (stop tag : Int) : Option Text := (stream.tagContent tag stop).bind nameIn?

/-- The text behind the tag is a type, the variable of the parameter and a description, and the type covers the one
that the parameter is declared with. -/
def Describes (stream : Stream) (stop tag : Int) (parameter : Parameter) : Prop :=
  ∃ text type word description, stream.tagContent tag stop = some text ∧
    Text.words 2 text = [type, word, description] ∧ isVariable type = false ∧ isVariable word = true ∧
    bareVariable word = parameter.name ∧ description ≠ [] ∧
    (parameter.hint = [] ∨ documents type parameter.hint = true)

variable {stream : Stream} {stop tag : Int}

theorem Describes.tagName?_eq {parameter : Parameter} (h : stream.Describes stop tag parameter) :
    stream.tagName? stop tag = some parameter.name := by
  obtain ⟨text, type, word, description, htext, hwords, htype, hword, hname, -, -⟩ := h
  simp [tagName?, nameIn?, htext, hwords, htype, hword, hname]

theorem checkVariable_name {parameter : Option Parameter} {type : Text} {words : List Text} {name : Option Text}
    (h : (stream.checkVariable tag parameter type words).result = .ok name) :
    name = (words.head?.filter isVariable).map bareVariable := by
  cases words with
  | nil => exact Check.result_bind_pure h
  | cons word description =>
    rw [checkVariable] at h
    split at h
    · next hvariable =>
      obtain ⟨_, -, h, -⟩ := Check.bind_eq_ok h
      simp only [List.head?_cons, Option.filter_some, hvariable, if_true, Option.map_some]
      split at h
      · exact Check.result_bind_pure h
      · exact (Except.ok.inj h).symm
    · next hnot =>
      rw [Check.result_bind_pure h]
      simp [hnot]

theorem checkParameterTag_name {parameter : Option Parameter} {content name : Option Text}
    (h : (stream.checkParameterTag tag parameter content).result = .ok name) : name = content.bind nameIn? := by
  cases content with
  | none => exact Check.result_bind_pure h
  | some text =>
    rw [Option.bind_some, nameIn?]
    rw [checkParameterTag] at h
    split at h
    · cases h
    · next first rest hwords =>
      rw [hwords]
      split at h
      · next hfirst =>
        obtain ⟨_, -, h, -⟩ := Check.bind_eq_ok h
        rw [checkVariable_name h]
        simp [hfirst]
      · next hfirst =>
        rw [checkVariable_name h]
        cases rest with
        | nil => simp [hfirst]
        | cons second more =>
          by_cases hsecond : isVariable second = true
          · simp [hfirst, hsecond]
          · simp [hfirst, hsecond]

/-! ### No finding at a tag -/

section Inside

variable (h : stream.Inside tag)
include h

theorem report_events_ne {severity : Severity} {template : Text} {code : String} {arguments : List Text}
    {source : String} : (stream.report severity template tag code arguments source).events ≠ [] := by
  obtain ⟨i, token, rfl, ht⟩ := h.exists_token
  rw [report_at ht]
  exact List.cons_ne_nil _ _

theorem reportError_then_events_ne {α : Type} {template code : String} {arguments : List Text}
    {next : Unit → Check α} : (stream.reportError template tag code arguments >>= next).events ≠ [] := by
  rw [Ne, Check.events_bind_eq_nil (reportError_result h ..)]
  exact fun hnil => report_events_ne h hnil.1

theorem checkAgainst_events_eq_nil {type name : Text} {parameter : Option Parameter} :
    (stream.checkAgainst tag type name parameter).events = [] ↔ ∃ declared, parameter = some declared ∧
      name = declared.name ∧ (type = [] ∨ declared.hint = [] ∨ documents type declared.hint = true) := by
  cases parameter with
  | none => exact iff_of_false (report_events_ne h) (by simp)
  | some declared =>
    rw [checkAgainst]
    split
    · next hname => exact iff_of_false (report_events_ne h) (by simp [hname])
    · next hname =>
      have hname : name = declared.name := by simpa using hname
      split
      · next hcover => exact iff_of_false (report_events_ne h) (by simpa [hname] using hcover)
      · next hcover =>
        refine iff_of_true rfl ⟨declared, rfl, hname, ?_⟩
        by_contra hnot
        exact hcover (by simpa using hnot)

theorem checkVariable_events_eq_nil {parameter : Option Parameter} {type : Text} {words : List Text} :
    (stream.checkVariable tag parameter type words).events = [] ↔
      ∃ word description, words = word :: description ∧ isVariable word = true ∧ description ≠ [] ∧
        (stream.checkAgainst tag type (bareVariable word) parameter).events = [] := by
  cases words with
  | nil => exact iff_of_false (reportError_then_events_ne h) (by simp)
  | cons word description =>
    rw [checkVariable]
    split
    · next hvariable =>
      rw [Check.events_bind_eq_nil (checkAgainst_result h ..)]
      cases description with
      | nil => exact iff_of_false (fun hnil => reportError_then_events_ne h hnil.2) (by simp)
      | cons more rest =>
        constructor
        · intro hnil
          exact ⟨word, more :: rest, rfl, hvariable, List.cons_ne_nil _ _, hnil.1⟩
        · rintro ⟨_, _, heq, -, -, hnil⟩
          obtain ⟨rfl, rfl⟩ := List.cons.inj heq
          exact ⟨hnil, rfl⟩
    · next hnot => exact iff_of_false (reportError_then_events_ne h) (by simp [hnot])

/-- The check of a tag that is not stopped finds nothing exactly if the tag describes a parameter at its place. -/
theorem checkParameterTag_events_eq_nil {parameter : Option Parameter} {name : Option Text}
    (hok : (stream.checkParameterTag tag parameter (stream.tagContent tag stop)).result = .ok name) :
    (stream.checkParameterTag tag parameter (stream.tagContent tag stop)).events = [] ↔
      ∃ declared, parameter = some declared ∧ stream.Describes stop tag declared := by
  cases hcontent : stream.tagContent tag stop with
  | none => exact iff_of_false (reportError_then_events_ne h) (by simp [Describes, hcontent])
  | some text =>
    rw [hcontent, checkParameterTag] at hok
    rw [checkParameterTag]
    cases hwords : Text.words 2 text with
    | nil =>
      rw [hwords] at hok
      cases hok
    | cons type rest =>
      dsimp only
      split
      · next htype =>
        refine iff_of_false (reportError_then_events_ne h) ?_
        simp [Describes, hcontent, hwords, htype]
      · next htype =>
        have hne : type ≠ [] := Text.ne_nil_of_mem_words (by rw [hwords]; exact List.mem_cons_self)
        rw [checkVariable_events_eq_nil h]
        constructor
        · rintro ⟨word, description, rfl, hword, hsome, hagainst⟩
          obtain ⟨declared, rfl, hname, hcover⟩ := (checkAgainst_events_eq_nil h).1 hagainst
          obtain ⟨last, rfl, hlast⟩ := Text.exists_third_word hwords hsome
          refine ⟨declared, rfl, text, type, word, last, hcontent, hwords, ?_⟩
          exact ⟨by simpa using htype, hword, hname, hlast, hcover.resolve_left hne⟩
        · rintro ⟨declared, rfl, other, _, word, last, hother, hthree, -, hword, hname, -, hcover⟩
          obtain rfl : text = other := Option.some.inj (hcontent.symm.trans hother)
          obtain ⟨rfl, rfl⟩ := List.cons.inj (hwords.symm.trans hthree)
          refine ⟨word, [last], rfl, hword, List.cons_ne_nil _ _, ?_⟩
          exact (checkAgainst_events_eq_nil h).2 ⟨declared, rfl, hname, Or.inr hcover⟩

end Inside

/-! ## The tags in order -/

/-- The check of the tag at a place among the tags. -/
def tagCheck (stream : Stream) (stop : Int) (parameters : List Parameter) (place : Nat) (tag : Int) :
    Check (Option Text) :=
  stream.checkParameterTag tag parameters[place]? (stream.tagContent tag stop)

/-- The events of all checks of tags, as if none of them stopped the next. -/
def tagEvents (stream : Stream) (stop : Int) (tags : List Int) (parameters : List Parameter) : List Event :=
  (tags.mapIdx fun place tag => (stream.tagCheck stop parameters place tag).events).flatten

theorem tagCheck_findsAtTag (stream : Stream) (stop : Int) (parameters : List Parameter) (place : Nat) (tag : Int) :
    stream.FindsAtTag tag (∃ text type rest, stream.tagContent tag stop = some text ∧
      Text.words 2 text = type :: rest ∧ Uncovered type parameters[place]?)
      (stream.tagCheck stop parameters place tag) :=
  checkParameterTag_findsAtTag ..

theorem tagCheck_zero (parameters : List Parameter) :
    stream.tagCheck stop parameters 0 tag =
      stream.checkParameterTag tag parameters.head? (stream.tagContent tag stop) := by
  rw [tagCheck, List.head?_eq_getElem?]

theorem tagCheck_succ (parameters : List Parameter) (place : Nat) :
    stream.tagCheck stop parameters (place + 1) tag = stream.tagCheck stop parameters.tail place tag := by
  rw [tagCheck, tagCheck, List.getElem?_tail]

theorem tagEvents_cons {tags : List Int} {parameters : List Parameter} :
    stream.tagEvents stop (tag :: tags) parameters =
      (stream.tagCheck stop parameters 0 tag).events ++ stream.tagEvents stop tags parameters.tail := by
  simp only [tagEvents, List.mapIdx_cons, List.flatten_cons, tagCheck_succ]

theorem mem_tagEvents {tags : List Int} {parameters : List Parameter} {event : Event} :
    event ∈ stream.tagEvents stop tags parameters ↔
      ∃ place tag, tags[place]? = some tag ∧ event ∈ (stream.tagCheck stop parameters place tag).events := by
  rw [tagEvents, List.mem_flatten]
  constructor
  · rintro ⟨events, hevents, hm⟩
    obtain ⟨place, hlt, rfl⟩ := List.mem_mapIdx.1 hevents
    exact ⟨place, tags[place], List.getElem?_eq_getElem hlt, hm⟩
  · rintro ⟨place, tag, htag, hm⟩
    obtain ⟨hlt, rfl⟩ := List.getElem?_eq_some_iff.1 htag
    exact ⟨_, List.mem_mapIdx.2 ⟨place, hlt, rfl⟩, hm⟩

/-- Whether it is stopped or not, the check of tags reports nothing else. -/
theorem checkParameterTags_isPrefix (tags : List Int) (parameters : List Parameter) :
    (stream.checkParameterTags stop tags parameters).events <+: stream.tagEvents stop tags parameters := by
  induction tags generalizing parameters with
  | nil => exact List.nil_prefix
  | cons tag rest ih =>
    rw [checkParameterTags, ← tagCheck_zero, tagEvents_cons]
    cases hfirst : (stream.tagCheck stop parameters 0 tag).result with
    | error fault =>
      rw [Check.bind_of_error hfirst]
      exact List.prefix_append ..
    | ok name =>
      rw [Check.bind_of_ok hfirst, List.prefix_append_right_inj, Check.events_bind_pure]
      exact ih parameters.tail

/-- A check of tags that is not stopped reports what the checks of all tags report, and gives the names that the tags
give. -/
theorem checkParameterTags_of_ok {tags : List Int} {parameters : List Parameter} {names : List Text}
    (h : (stream.checkParameterTags stop tags parameters).result = .ok names) :
    (stream.checkParameterTags stop tags parameters).events = stream.tagEvents stop tags parameters ∧
      names = tags.filterMap (stream.tagName? stop) ∧
      ∀ place tag, tags[place]? = some tag →
        ∃ name, (stream.tagCheck stop parameters place tag).result = .ok name := by
  induction tags generalizing parameters names with
  | nil => exact ⟨rfl, (Except.ok.inj h).symm, by simp⟩
  | cons tag rest ih =>
    rw [checkParameterTags, ← tagCheck_zero] at h ⊢
    obtain ⟨name, hfirst, h, hall⟩ := Check.bind_eq_ok h
    obtain ⟨more, hrest, h, -⟩ := Check.bind_eq_ok h
    obtain ⟨hevents, rfl, hresults⟩ := ih hrest
    have hname : name = stream.tagName? stop tag := checkParameterTag_name hfirst
    refine ⟨?_, ?_, fun place other hother => ?_⟩
    · rw [hall, Check.events_bind_pure, hevents, tagEvents_cons]
    · rw [← Except.ok.inj h, hname, List.filterMap_cons]
      cases stream.tagName? stop tag with
      | none => rfl
      | some found => rfl
    · cases place with
      | zero =>
        obtain rfl : tag = other := by simpa using hother
        exact ⟨name, hfirst⟩
      | succ place =>
        rw [tagCheck_succ]
        exact hresults place other (by simpa using hother)

/-- The finding about a parameter that no tag names. -/
def missingTag (stop : Int) (last : Token) (parameter : Parameter) : Diagnostic where
  position := stop
  line := last.line
  column := last.column
  template := "Doc comment for parameter \"%s\" missing".toList
  arguments := [parameter.name]
  code := "MissingParamTag"
  severity := .error
  source := "FunctionComment"

theorem checkUndocumented_events {c : Nat} {last : Token} (h : stream[c]? = some last) (documented : List Text)
    (parameters : List Parameter) :
    (stream.checkUndocumented c documented parameters).events =
      (parameters.filter fun parameter => parameter.name ∉ documented).map
        fun parameter => .found (missingTag c last parameter) := by
  induction parameters with
  | nil => rfl
  | cons parameter rest ih =>
    rw [checkUndocumented]
    by_cases hm : parameter.name ∈ documented
    · rw [if_neg (by simpa using hm), List.filter_cons_of_neg (by simpa using hm)]
      exact ih
    · have hreport : stream.reportError "Doc comment for parameter \"%s\" missing" c "MissingParamTag"
          [parameter.name] = Check.report (.found (missingTag c last parameter)) := report_at h ..
      rw [if_pos (by simpa using hm), List.filter_cons_of_pos (by simpa using hm), hreport,
        Check.bind_of_ok rfl, ih]
      rfl

/-! ## The whole check -/

/-- Tags that describe the first parameters one by one name all of them exactly if there are as many tags as
parameters, provided that the names of the parameters differ. -/
theorem tags_match_iff {tags : List Nat} {parameters : List Parameter} (hdistinct : (parameters.map (·.name)).Nodup) :
    ((∀ (k tag : Nat), tags[k]? = some tag →
        ∃ parameter, parameters[k]? = some parameter ∧ stream.Describes stop tag parameter) ∧
      ∀ parameter ∈ parameters, parameter.name ∈ tags.filterMap fun tag : Nat => stream.tagName? stop tag) ↔
    tags.length = parameters.length ∧ ∀ (k tag : Nat) (parameter : Parameter), tags[k]? = some tag →
      parameters[k]? = some parameter → stream.Describes stop tag parameter := by
  constructor
  · rintro ⟨hdescribes, hnamed⟩
    have hle : tags.length ≤ parameters.length := by
      by_contra hlt
      obtain ⟨parameter, hparameter, -⟩ := hdescribes parameters.length _ (List.getElem?_eq_getElem (by omega))
      simp at hparameter
    refine ⟨Nat.le_antisymm hle ?_, fun k tag parameter htag hparameter => ?_⟩
    · -- a further parameter would share its name with the one that the tag of its name describes
      by_contra hlt
      obtain ⟨extra, hextra⟩ : ∃ extra, parameters[tags.length]? = some extra :=
        ⟨_, List.getElem?_eq_getElem (by omega)⟩
      obtain ⟨tag, htag, hname⟩ := List.mem_filterMap.1 (hnamed extra (List.mem_of_getElem? hextra))
      obtain ⟨k, hk⟩ := List.getElem?_of_mem htag
      obtain ⟨parameter, hparameter, hdescribed⟩ := hdescribes k tag hk
      have hsame : parameter.name = extra.name := Option.some.inj (hdescribed.tagName?_eq.symm.trans hname)
      have hlt' := (List.getElem?_eq_some_iff.1 hk).1
      have heq : k = tags.length := by
        refine (List.getElem?_inj (by rw [List.length_map]; omega) hdistinct).1 ?_
        rw [List.getElem?_map, List.getElem?_map, hparameter, hextra, Option.map_some, Option.map_some, hsame]
      omega
    · obtain ⟨found, hfound, hdescribed⟩ := hdescribes k tag htag
      obtain rfl : found = parameter := Option.some.inj (hfound.symm.trans hparameter)
      exact hdescribed
  · rintro ⟨hlength, hdescribes⟩
    refine ⟨fun k tag htag => ?_, fun parameter hm => ?_⟩
    · have hlt := (List.getElem?_eq_some_iff.1 htag).1
      exact ⟨_, List.getElem?_eq_getElem (by omega), hdescribes k tag _ htag (List.getElem?_eq_getElem (by omega))⟩
    · obtain ⟨k, hk⟩ := List.getElem?_of_mem hm
      have hlt := (List.getElem?_eq_some_iff.1 hk).1
      have htag : tags[k]? = some tags[k] := List.getElem?_eq_getElem (by omega)
      exact List.mem_filterMap.2 ⟨_, List.mem_of_getElem? htag, (hdescribes k _ parameter htag hk).tagName?_eq⟩

/-- What is found at one tag, as a list of findings. -/
theorem exists_findings {α : Type} {check : Check α} {uncovered : Prop}
    (h : stream.FindsAtTag tag uncovered check) :
    ∃ findings : List Diagnostic, check.events = findings.map .found ∧
      ∀ diagnostic ∈ findings, diagnostic.position = tag ∧ diagnostic.code ≠ "MissingParamTag" := by
  have hrange : check.events ∈ Set.range (List.map Event.found) := by
    rw [Set.range_list_map]
    intro event hm
    obtain ⟨diagnostic, rfl, -⟩ := h.of_mem event hm
    exact ⟨diagnostic, rfl⟩
  obtain ⟨findings, hfindings⟩ := hrange
  refine ⟨findings, hfindings.symm, fun diagnostic hm => ?_⟩
  obtain ⟨found, heq, hfound⟩ := h.of_mem (.found diagnostic) (hfindings ▸ List.mem_map_of_mem hm)
  obtain rfl := Event.found.inj heq
  exact ⟨hfound.position, hfound.code.2⟩

/-- What is found at tags that increase is in the order of the tags. -/
theorem exists_tagFindings (stream : Stream) (stop : Int) {tags : List Int} (h : tags.Pairwise (· < ·))
    (parameters : List Parameter) :
    ∃ findings : List Diagnostic, stream.tagEvents stop tags parameters = findings.map .found ∧
      (∀ diagnostic ∈ findings, diagnostic.position ∈ tags ∧ diagnostic.code ≠ "MissingParamTag") ∧
      findings.Pairwise fun one other => one.position ≤ other.position := by
  induction tags generalizing parameters with
  | nil => exact ⟨[], rfl, by simp, .nil⟩
  | cons tag rest ih =>
    obtain ⟨hfirst, hrest⟩ := List.pairwise_cons.1 h
    obtain ⟨later, hlater, hplaces, hsorted⟩ := ih hrest parameters.tail
    obtain ⟨own, hown, hat⟩ := exists_findings (tagCheck_findsAtTag stream stop parameters 0 tag)
    refine ⟨own ++ later, ?_, fun diagnostic hm => ?_, ?_⟩
    · rw [tagEvents_cons, hlater, List.map_append, ← hown]
    · rcases List.mem_append.1 hm with hm | hm
      · obtain ⟨hposition, hcode⟩ := hat diagnostic hm
        exact ⟨hposition ▸ List.mem_cons_self, hcode⟩
      · obtain ⟨hposition, hcode⟩ := hplaces diagnostic hm
        exact ⟨List.mem_cons_of_mem _ hposition, hcode⟩
    · refine List.pairwise_append.2 ⟨List.pairwise_of_forall_mem_list fun one hone other hother => ?_, hsorted, ?_⟩
      · rw [(hat one hone).1, (hat other hother).1]
      · intro one hone other hother
        rw [(hat one hone).1]
        exact Int.le_of_lt (hfirst _ (hplaces other hother).1)

/-- Nothing is found at the tags exactly if each describes the parameter at its place. -/
theorem tagEvents_eq_nil {tags : List Nat} {parameters : List Parameter} (h : ∀ tag ∈ tags, stream.Inside (tag : Int))
    (hok : ∀ (k : Nat) (tag : Int), (tags.map fun tag : Nat => (tag : Int))[k]? = some tag →
      ∃ name, (stream.tagCheck stop parameters k tag).result = .ok name) :
    stream.tagEvents stop (tags.map fun tag : Nat => (tag : Int)) parameters = [] ↔
      ∀ (k tag : Nat), tags[k]? = some tag →
        ∃ parameter, parameters[k]? = some parameter ∧ stream.Describes stop tag parameter := by
  have hat : ∀ (k tag : Nat), tags[k]? = some tag → ((stream.tagCheck stop parameters k tag).events = [] ↔
      ∃ parameter, parameters[k]? = some parameter ∧ stream.Describes stop tag parameter) := by
    intro k tag htag
    obtain ⟨name, hname⟩ := hok k tag (by rw [List.getElem?_map, htag]; rfl)
    exact checkParameterTag_events_eq_nil (h tag (List.mem_of_getElem? htag)) hname
  constructor
  · intro hnil k tag htag
    refine (hat k tag htag).1 (List.eq_nil_iff_forall_not_mem.2 fun event hm => ?_)
    have hevent : event ∈ stream.tagEvents stop (tags.map fun tag : Nat => (tag : Int)) parameters :=
      mem_tagEvents.2 ⟨k, tag, by rw [List.getElem?_map, htag]; rfl, hm⟩
    rw [hnil] at hevent
    cases hevent
  · intro hall
    refine List.eq_nil_iff_forall_not_mem.2 fun event hm => ?_
    obtain ⟨k, tag, htag, hevent⟩ := mem_tagEvents.1 hm
    rw [List.getElem?_map] at htag
    obtain ⟨tag, hk, rfl⟩ := Option.map_eq_some_iff.1 htag
    rw [(hat k tag hk).2 (hall k tag hk)] at hevent
    cases hevent

/-- A check of the parameters that is not stopped, step by step. -/
theorem checkParameters_of_ok {source : Text} {i o : Nat} (h : ofSource source = .ok stream)
    (hreturns : (stream.checkParameters i o).result = .ok ()) :
    ∃ (parameters : List Parameter) (c : Nat) (last : Token) (names : List Text),
      stream.parameters i = .ok parameters ∧ stream[c]? = some last ∧ stream.commentEnd o = .ok (c : Int) ∧
      (stream.checkParameterTags c ((stream.tagsBetween "@param".toList o c).map fun tag : Nat => (tag : Int))
        parameters).result = .ok names ∧
      (stream.checkParameters i o).events =
        (stream.checkParameterTags c ((stream.tagsBetween "@param".toList o c).map fun tag : Nat => (tag : Int))
          parameters).events ++ (stream.checkUndocumented c names parameters).events := by
  obtain ⟨stop, hstop, hlater, -⟩ := Check.bind_eq_ok hreturns
  obtain ⟨parameters, hparameters, -⟩ := Check.bind_eq_ok hlater
  have hparameters : stream.parameters i = .ok parameters := hparameters
  obtain ⟨first, hfirst, -⟩ := bind_eq_ok.1 (show stream.commentEnd o = .ok stop from hstop)
  obtain ⟨c, last, hlast, hend, htags⟩ := exists_tagsNamed h (getElem?_of_fetch hfirst) "@param".toList
  have hsteps : stream.checkParameters i o = stream.checkParameterTags c
      ((stream.tagsBetween "@param".toList o c).map fun tag : Nat => (tag : Int)) parameters >>=
        fun names => stream.checkUndocumented c names parameters := by
    rw [checkParameters, hend, Check.quiet_ok_bind, hparameters, Check.quiet_ok_bind, htags, Check.quiet_ok_bind]
  rw [hsteps] at hreturns ⊢
  obtain ⟨names, hnames, -, hevents⟩ := Check.bind_eq_ok hreturns
  exact ⟨parameters, c, last, names, hparameters, hlast, hend, hnames, hevents⟩

/-- The check of the `@param` tags of the comment that starts at `o`, for the function at `i`, if it is not stopped.

* First come findings at the tags, in the order of the tags; none of them is about a parameter without a tag.
* Then comes one finding at the end of the comment for each parameter whose name no tag gives, in the order of the
  parameters.
* If the names of the parameters differ, there is no finding exactly if there are as many tags as parameters and each
  tag describes the parameter at its place. -/
theorem parameter_findings_exact {source : Text} {i o : Nat} (h : ofSource source = .ok stream)
    (hreturns : (stream.checkParameters i o).result = .ok ()) :
    ∃ (parameters : List Parameter) (c : Nat) (last : Token) (atTags : List Diagnostic),
      stream.parameters i = .ok parameters ∧ stream.commentEnd o = .ok (c : Int) ∧ stream[c]? = some last ∧
      (stream.checkParameters i o).events = (atTags ++
        (parameters.filter fun parameter => parameter.name ∉
          (stream.tagsBetween "@param".toList o c).filterMap fun tag : Nat => stream.tagName? c tag).map
        (missingTag c last)).map .found ∧
      (∀ diagnostic ∈ atTags, diagnostic.code ≠ "MissingParamTag" ∧
        ∃ tag ∈ stream.tagsBetween "@param".toList o c, diagnostic.position = tag) ∧
      (atTags.Pairwise fun one other => one.position ≤ other.position) ∧
      ((parameters.map (·.name)).Nodup → ((stream.checkParameters i o).events = [] ↔
        (stream.tagsBetween "@param".toList o c).length = parameters.length ∧
        ∀ (k tag : Nat) (parameter : Parameter), (stream.tagsBetween "@param".toList o c)[k]? = some tag →
          parameters[k]? = some parameter → stream.Describes c tag parameter)) := by
  obtain ⟨parameters, c, last, names, hparameters, hlast, hend, hnames, hevents⟩ := checkParameters_of_ok h hreturns
  obtain ⟨hrun, rfl, hok⟩ := checkParameterTags_of_ok hnames
  have hsorted : ((stream.tagsBetween "@param".toList o c).map fun tag : Nat => (tag : Int)).Pairwise (· < ·) := by
    rw [List.pairwise_map]
    exact tagsBetween_sorted.imp Int.ofNat_lt.2
  obtain ⟨atTags, hfindings, hplaces, hordered⟩ := exists_tagFindings stream c hsorted parameters
  rw [List.filterMap_map] at hevents
  rw [hrun, checkUndocumented_events hlast] at hevents
  refine ⟨parameters, c, last, atTags, hparameters, hend, hlast, ?_, fun diagnostic hm => ?_, hordered, ?_⟩
  · rw [hevents, hfindings, List.map_append, List.map_map]
    rfl
  · obtain ⟨hposition, hcode⟩ := hplaces diagnostic hm
    obtain ⟨tag, htag, heq⟩ := List.mem_map.1 hposition
    exact ⟨hcode, tag, htag, heq.symm⟩
  · intro hdistinct
    rw [hevents, List.append_eq_nil_iff, tagEvents_eq_nil (fun tag hm => inside_of_mem_tagsBetween hm) hok,
      ← tags_match_iff hdistinct]
    refine and_congr_right fun _ => ?_
    simp

/-- A comment whose second tag has another name than the second parameter, and no type. -/
def misnamedTag : Text := "<?php\n/**\n * @param int $a A.\n * @param $c\n */\nfunction f($a, $b) \x7b\x7d".toList

/-- Of two tags the second is wrong: the findings at it come first, then the one about the second parameter. -/
theorem parameter_findings_exact_misnamed :
    ∃ stream parameters, ofSource misnamedTag = .ok stream ∧
      (stream.checkParameters (21 : Nat) (2 : Nat)).result = .ok () ∧
      stream.parameters (21 : Nat) = .ok parameters ∧ (parameters.map (·.name)).Nodup ∧
      ((stream.checkParameters (21 : Nat) (2 : Nat)).events.filterMap Event.diagnostic?).map
          (fun diagnostic => (diagnostic.position, diagnostic.code)) =
        [(14, "MissingParamType"), (14, "ParamNameNoMatch"), (14, "MissingParamComment"), (19, "MissingParamTag")] ∧
      ∃ (c : Nat) (last : Token) (atTags : List Diagnostic),
        stream.commentEnd (2 : Nat) = .ok (c : Int) ∧ stream[c]? = some last ∧
        (stream.checkParameters (21 : Nat) (2 : Nat)).events = (atTags ++
          (parameters.filter fun parameter => parameter.name ∉
            (stream.tagsBetween "@param".toList 2 c).filterMap fun tag : Nat => stream.tagName? c tag).map
          (missingTag c last)).map .found ∧
        ¬ ((stream.tagsBetween "@param".toList 2 c).length = parameters.length ∧
          ∀ (k tag : Nat) (parameter : Parameter), (stream.tagsBetween "@param".toList 2 c)[k]? = some tag →
            parameters[k]? = some parameter → stream.Describes c tag parameter) := by
  have hrun : (ofSource misnamedTag).toOption.any (fun stream =>
      (stream.checkParameters (21 : Nat) (2 : Nat)).result == .ok () &&
      (stream.parameters (21 : Nat)).toOption.any (fun parameters => decide (parameters.map (·.name)).Nodup) &&
      decide (((stream.checkParameters (21 : Nat) (2 : Nat)).events.filterMap Event.diagnostic?).map
          (fun diagnostic => (diagnostic.position, diagnostic.code)) =
        [(14, "MissingParamType"), (14, "ParamNameNoMatch"), (14, "MissingParamComment"),
          (19, "MissingParamTag")])) = true := by
    decide +kernel
  obtain ⟨stream, h, hat⟩ := exists_eq_ok_of_any hrun
  simp only [Bool.and_eq_true, decide_eq_true_eq, beq_iff_eq] at hat
  obtain ⟨⟨hreturns, hnames⟩, hcodes⟩ := hat
  obtain ⟨parameters, hparameters, hdistinct⟩ := exists_eq_ok_of_any hnames
  have hdistinct : (parameters.map (·.name)).Nodup := of_decide_eq_true hdistinct
  obtain ⟨found, c, last, atTags, hfound, hend, hlast, hevents, -, -, hnone⟩ := parameter_findings_exact h hreturns
  obtain rfl : parameters = found := Except.ok.inj (hparameters.symm.trans hfound)
  refine ⟨stream, parameters, h, hreturns, hparameters, hdistinct, hcodes, c, last, atTags, hend, hlast, hevents, ?_⟩
  intro hmatch
  rw [(hnone hdistinct).2 hmatch] at hcodes
  cases hcodes

end Stream

end DocLint
