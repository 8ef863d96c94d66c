import DocLint.Proofs.Attribution
import DocLint.Proofs.ParameterLists
import DocLint.Proofs.ParameterTags
import DocLint.Proofs.TypeCoverage

/-!
# Declared types in comments

What stands in front of the variable of a parameter is its type as it is written, but for attributes, modifiers, the
dots of a variadic parameter and the mark of a reference (`writtenType`). The type that is read leaves out every
ampersand and all dots, wherever they stand (`hintOf_eq`). So an intersection loses its marks and its names run
together, and a comment that repeats it is said not to cover it (`intersection_uncovered`). A type without marks of
its own is read as it is written, and every type covers itself.
-/

namespace DocLint

/-! ## The type as it is written -/

/-- The token at the index counts in front of a variable: it is not silent, is no modifier and stands in no
attribute. -/
def Counts (tokens : List Token) (po pc j : Nat) : Prop :=
  (kindsOf tokens)[j]?.any (fun kind => !kind.isSilent && !kind.isModifier) = true ∧ ¬ InAttribute tokens po pc j

instance (tokens : List Token) (po pc j : Nat) : Decidable (Counts tokens po pc j) :=
  inferInstanceAs (Decidable (_ ∧ _))

/-- The token at the index is an ampersand or three dots. -/
def IsPassingMark (tokens : List Token) (j : Nat) : Prop :=
  (kindsOf tokens)[j]? = some .ampersand ∨ (kindsOf tokens)[j]? = some .ellipsis

instance (tokens : List Token) (j : Nat) : Decidable (IsPassingMark tokens j) :=
  inferInstanceAs (Decidable (_ ∨ _))

/-- The indices without the last one, if the token there is of the given kind. -/
def withoutLast (tokens : List Token) (kind : Kind) (indices : List Nat) : List Nat :=
  if indices.getLast?.bind ((kindsOf tokens)[·]?) = some kind then indices.dropLast else indices

/-- The parts of the type that is written in front of the variable of a segment: all that counts there, less the dots
before the variable, and less the ampersand before these. -/
def writtenParts (tokens : List Token) (po pc : Nat) (segment : List Nat) : List Nat :=
  withoutLast tokens .ampersand (withoutLast tokens .ellipsis
    ((beforeDeclared tokens po pc segment).filter fun j => decide (Counts tokens po pc j)))

/-- The type that is written in front of the variable of a segment. -/
def writtenType (tokens : List Token) (po pc : Nat) (segment : List Nat) : Text :=
  (writtenParts tokens po pc segment).flatMap (contentAt tokens)

variable {tokens : List Token} {po pc : Nat} {segment : List Nat}

theorem typePart_iff {j : Nat} : TypePart tokens po pc j ↔ Counts tokens po pc j ∧ ¬ IsPassingMark tokens j := by
  rw [TypePart, Counts, IsPassingMark]
  cases (kindsOf tokens)[j]? with
  | none => simp
  | some kind =>
    simp only [Option.any_some, Kind.isTypePart, Bool.and_eq_true, bne_iff_ne, Option.some.injEq]
    tauto

/-- Only a mark is taken from the end, so what is no mark stays. -/
theorem filter_withoutLast {kind : Kind} (hk : kind = .ampersand ∨ kind = .ellipsis) (indices : List Nat) :
    (withoutLast tokens kind indices).filter (fun j => !decide (IsPassingMark tokens j)) =
      indices.filter fun j => !decide (IsPassingMark tokens j) := by
  rw [withoutLast]
  split
  · next hlast =>
    obtain ⟨last, hsome, hkind⟩ := Option.bind_eq_some_iff.1 hlast
    have hmark : IsPassingMark tokens last := by
      rcases hk with rfl | rfl
      · exact Or.inl hkind
      · exact Or.inr hkind
    obtain ⟨front, rfl⟩ := List.getLast?_eq_some_iff.1 hsome
    simp [hmark]
  · rfl

/-- The type that is read is the written one without ampersands and dots. -/
theorem hintOf_eq (tokens : List Token) (po pc : Nat) (segment : List Nat) :
    hintOf tokens po pc segment =
      ((writtenParts tokens po pc segment).filter fun j => !decide (IsPassingMark tokens j)).flatMap
        (contentAt tokens) := by
  have hparts : (beforeDeclared tokens po pc segment).filter (fun j => decide (TypePart tokens po pc j)) =
      ((beforeDeclared tokens po pc segment).filter fun j => decide (Counts tokens po pc j)).filter
        fun j => !decide (IsPassingMark tokens j) := by
    rw [List.filter_filter]
    refine List.filter_congr fun j _ => ?_
    simp [typePart_iff, Bool.and_comm]
  rw [hintOf, hparts, writtenParts, filter_withoutLast (Or.inl rfl), filter_withoutLast (Or.inr rfl)]

theorem writtenType_eq_hintOf (h : ∀ j ∈ writtenParts tokens po pc segment, ¬ IsPassingMark tokens j) :
    writtenType tokens po pc segment = hintOf tokens po pc segment := by
  have hall : (writtenParts tokens po pc segment).filter (fun j => !decide (IsPassingMark tokens j)) =
      writtenParts tokens po pc segment := List.filter_eq_self.2 fun j hj => by simpa using h j hj
  rw [hintOf_eq, hall, writtenType]

theorem hintOf_eq_nil_of_writtenType (h : writtenType tokens po pc segment = []) :
    hintOf tokens po pc segment = [] := by
  rw [writtenType, List.flatMap_eq_nil_iff] at h
  rw [hintOf_eq, List.flatMap_eq_nil_iff]
  exact fun j hj => h j (List.mem_filter.1 hj).1

/-! ## A comment that repeats the type -/

/-- The first word of a text that starts with a word and a space. -/
theorem Text.words_append_space {word : Text} (hne : word ≠ []) (hword : ∀ x ∈ word, isSpace x = false) (cuts : Nat)
    (rest : Text) : words (cuts + 1) (word ++ ' ' :: rest) = word :: words cuts (' ' :: rest) := by
  have hdrop : (word ++ ' ' :: rest).dropWhile isSpace = word ++ ' ' :: rest := by
    obtain ⟨x, more, rfl⟩ := List.exists_cons_of_ne_nil hne
    rw [List.cons_append, List.dropWhile_cons_of_neg (by simp [hword x List.mem_cons_self])]
  have hword' : ∀ x ∈ word, (!isSpace x) = true := fun x hx => by simp [hword x hx]
  have hspace : (!isSpace ' ') = false := by decide
  rw [words_succ, hdrop, if_neg (by simp), List.takeWhile_append_of_pos hword', List.dropWhile_append_of_pos hword',
    List.takeWhile_cons_of_neg (by simp [hspace]), List.dropWhile_cons_of_neg (by simp [hspace]), List.append_nil]

namespace Stream

variable {stream : Stream} {i o : Nat}

/-- Every finding of the check of the parameters is one at a tag or about a parameter without a tag, whether the
check is stopped or not. -/
theorem checkParameters_each {source : Text} (h : ofSource source = .ok stream) :
    (stream.checkParameters i o).Each fun event =>
      ∃ (parameters : List Parameter) (c : Nat), stream.parameters i = .ok parameters ∧
        stream.commentEnd o = .ok (c : Int) ∧
        (event ∈ stream.tagEvents c ((stream.tagsBetween "@param".toList o c).map fun tag : Nat => (tag : Int))
            parameters ∨
          ∃ diagnostic, event = .found diagnostic ∧ diagnostic.code = "MissingParamTag") := by
  refine .after_quiet fun stop hstop => .after_quiet fun parameters hparameters => .after_quiet fun tags htags => ?_
  obtain ⟨first, hfirst, -⟩ := bind_eq_ok.1 hstop
  obtain ⟨c, last, hlast, hend, hnamed⟩ := exists_tagsNamed h (getElem?_of_fetch hfirst) "@param".toList
  obtain rfl : stop = (c : Int) := Except.ok.inj (hstop.symm.trans hend)
  obtain rfl := Except.ok.inj (htags.symm.trans hnamed)
  refine .then ⟨fun found hfound => ?_⟩ fun names => ⟨fun found hfound => ?_⟩
  · exact ⟨parameters, c, hparameters, hend, Or.inl ((checkParameterTags_isPrefix _ _).subset hfound)⟩
  · rw [checkUndocumented_events hlast] at hfound
    obtain ⟨parameter, -, rfl⟩ := List.mem_map.1 hfound
    exact ⟨parameters, c, hparameters, hend, Or.inr ⟨_, rfl, rfl⟩⟩

/-- At a tag whose text starts with a type that covers the declared one, the declared type is not found uncovered. -/
theorem not_typeHintMismatch {source : Text} (h : ofSource source = .ok stream) {parameters : List Parameter}
    (hparameters : stream.parameters i = .ok parameters) {n c tag : Nat} {parameter : Parameter}
    (hn : parameters[n]? = some parameter) (hend : stream.commentEnd o = .ok (c : Int))
    (htag : (stream.tagsBetween "@param".toList o c)[n]? = some tag) {type rest : Text}
    (hcontent : stream.tagContent tag c = some (type ++ ' ' :: rest)) (hspace : ∀ x ∈ type, Text.isSpace x = false)
    (hempty : type = [] → parameter.hint = []) (hcovers : documents type parameter.hint = true)
    {diagnostic : Diagnostic} (hm : .found diagnostic ∈ (stream.checkParameters i o).events)
    (hposition : diagnostic.position = tag) : diagnostic.code ≠ "TypeHintMismatch" := by
  intro hcode
  obtain ⟨parameters', c', hparameters', hend', hevent⟩ := (checkParameters_each h).of_mem _ hm
  obtain rfl := Except.ok.inj (hparameters.symm.trans hparameters')
  obtain rfl : c = c' := by
    have := Except.ok.inj (hend.symm.trans hend')
    omega
  rcases hevent with hevent | ⟨found, hfound, hmissing⟩
  · obtain ⟨place, tag', hplace, hat⟩ := mem_tagEvents.1 hevent
    obtain ⟨found, hsame, hfound⟩ := (tagCheck_findsAtTag stream c parameters place tag').of_mem _ hat
    obtain rfl := Event.found.inj hsame
    have hwhere := hfound.position
    rw [List.getElem?_map] at hplace
    obtain ⟨other, hother, rfl⟩ := Option.map_eq_some_iff.1 hplace
    obtain rfl : other = tag := by omega
    -- a tag is at one place only
    obtain rfl : place = n := by
      have hlt := (List.getElem?_eq_some_iff.1 hother).1
      exact (List.getElem?_inj hlt (tagsBetween_sorted.imp Nat.ne_of_lt)).1 (hother.trans htag.symm)
    obtain ⟨text, first, words, htext, hwords, declared, hdeclared, -, hhint, hnot⟩ := hfound.hint hcode
    obtain rfl : parameter = declared := Option.some.inj (hn.symm.trans hdeclared)
    obtain rfl := Option.some.inj (hcontent.symm.trans htext)
    have hne : type ≠ [] := fun hnil => hhint (hempty hnil)
    rw [Text.words_append_space hne hspace] at hwords
    obtain ⟨rfl, -⟩ := List.cons.inj hwords
    rw [hcovers] at hnot
    cases hnot
  · obtain rfl := Event.found.inj hfound
    rw [hcode] at hmissing
    revert hmissing
    decide

/-- The declared types of a parameter list, each with the segment that it is read from.

* The type that is read is the written one without ampersands and dots.
* If the written type has neither of its own, it is read as it is written, and covers what is read.
* If the written type covers what is read and has no white space, a tag at the place of the parameter whose text starts
  with it is never found to leave the declared type uncovered, whatever the comment. -/
theorem written_type_covers {source : Text} {token : Token} {po pc : Nat} (h : ofSource source = .ok stream)
    (hi : stream[i]? = some token) (hk : token.kind = .function ∨ token.kind = .closure)
    (hparens : token.parens = .between po pc) :
    ∃ parameters, stream.parameters i = .ok parameters ∧
      ∀ (n : Nat) (parameter : Parameter), parameters[n]? = some parameter →
        ∃ segment ∈ segmentsBetween stream.toList po pc, ∃ k : Nat,
          declared? stream.toList po pc segment = some k ∧ parameter.index = k ∧
          parameter.hint = ((writtenParts stream.toList po pc segment).filter fun j =>
            !decide (IsPassingMark stream.toList j)).flatMap (contentAt stream.toList) ∧
          ((∀ j ∈ writtenParts stream.toList po pc segment, ¬ IsPassingMark stream.toList j) →
            writtenType stream.toList po pc segment = parameter.hint ∧
              documents (writtenType stream.toList po pc segment) parameter.hint = true) ∧
          (documents (writtenType stream.toList po pc segment) parameter.hint = true →
            (∀ x ∈ writtenType stream.toList po pc segment, Text.isSpace x = false) →
            ∀ (o c tag : Nat) (rest : Text), stream.commentEnd o = .ok (c : Int) →
              (stream.tagsBetween "@param".toList o c)[n]? = some tag →
              stream.tagContent tag c = some (writtenType stream.toList po pc segment ++ ' ' :: rest) →
              ∀ diagnostic : Diagnostic, .found diagnostic ∈ (stream.checkParameters i o).events →
                diagnostic.position = tag → diagnostic.code ≠ "TypeHintMismatch") := by
  obtain ⟨-, hparameters⟩ := parameters_eq h hi hk hparens
  refine ⟨_, hparameters, fun n parameter hn => ?_⟩
  obtain ⟨segment, hsegment, hparameter⟩ := List.mem_filterMap.1 (List.mem_of_getElem? hn)
  obtain ⟨k, hdeclared, rfl⟩ := Option.map_eq_some_iff.1 hparameter
  refine ⟨segment, hsegment, k, hdeclared, rfl, hintOf_eq .., fun hplain => ?_, ?_⟩
  · have hsame := writtenType_eq_hintOf hplain
    exact ⟨hsame, by rw [hsame]; exact documents_self _⟩
  · intro hcovers hspace o c tag rest hend htag hcontent diagnostic hm hposition
    exact not_typeHintMismatch h hparameters hn hend htag hcontent hspace hintOf_eq_nil_of_writtenType hcovers hm
      hposition

/-- A variadic parameter that is passed by reference and has an attribute and a union type. -/
def verbatimUnion : Text :=
  "<?php\n/** @param null|(A)|int $x Text. */\nfunction f(#[K] null|(A)|int &...$x) \x7b\x7d".toList

/-- The type of the union is read as it is written, and the tag that repeats it is not found at fault. -/
theorem written_type_covers_union :
    ∃ stream, ofSource verbatimUnion = .ok stream ∧ ∃ token : Token, stream[10]? = some token ∧
      token.kind = .function ∧ token.parens = .between 13 29 ∧ ∃ parameter : Parameter,
        stream.parameters (10 : Nat) = .ok [parameter] ∧ parameter.hint = "null|(A)|int".toList ∧
        documents "null|(A)|int".toList parameter.hint = true ∧
        stream.tagContent (4 : Nat) (8 : Nat) = some "null|(A)|int $x Text.".toList ∧
        ∀ diagnostic : Diagnostic, .found diagnostic ∈ (stream.checkParameters (10 : Nat) (2 : Nat)).events →
          diagnostic.position = (4 : Nat) → diagnostic.code ≠ "TypeHintMismatch" := by
  have hrun : (ofSource verbatimUnion).toOption.any (fun stream : Stream =>
      stream[10]?.any (fun token => token.kind = .function ∧ token.parens = .between 13 29) &&
      decide (stream.parameters (10 : Nat) = .ok [⟨"$x".toList, 28, "null|(A)|int".toList⟩]) &&
      decide (segmentsBetween stream.toList 13 29 = [List.range' 14 15]) &&
      decide (writtenType stream.toList 13 29 (List.range' 14 15) = "null|(A)|int".toList) &&
      decide (∀ j ∈ writtenParts stream.toList 13 29 (List.range' 14 15), ¬ IsPassingMark stream.toList j) &&
      decide (stream.commentEnd (2 : Nat) = .ok ((8 : Nat) : Int)) &&
      decide (stream.tagsBetween "@param".toList 2 8 = [4]) &&
      decide (stream.tagContent (4 : Nat) (8 : Nat) = some "null|(A)|int $x Text.".toList)) = true := by
    decide +kernel
  obtain ⟨stream, h, hat⟩ := exists_eq_ok_of_any hrun
  simp only [Bool.and_eq_true, Option.any_eq_true, decide_eq_true_eq] at hat
  obtain ⟨⟨⟨⟨⟨⟨hread, hsegments⟩, hwritten⟩, hplain⟩, hend⟩, htags⟩, hcontent⟩ := hat
  obtain ⟨⟨token, hi, hk, hparens⟩, hparameters⟩ := hread
  obtain ⟨parameters, hfound, hall⟩ := written_type_covers h hi (Or.inl hk) hparens
  obtain rfl := Except.ok.inj (hparameters.symm.trans hfound)
  obtain ⟨segment, hsegment, k, -, -, -, hcovers, hnone⟩ := hall 0 _ rfl
  rw [hsegments] at hsegment
  obtain rfl := List.mem_singleton.1 hsegment
  obtain ⟨-, hdocuments⟩ := hcovers hplain
  rw [hwritten] at hdocuments hnone
  have hspace : ∀ x ∈ "null|(A)|int".toList, Text.isSpace x = false := by decide
  have hfree := hnone hdocuments hspace 2 8 4 "$x Text.".toList hend (by rw [htags]; rfl) hcontent
  exact ⟨stream, h, token, hi, hk, hparens, _, hparameters, rfl, hdocuments, hcontent, hfree⟩

/-- A parameter with an intersection type, and a tag that repeats it. -/
def verbatimIntersection : Text := "<?php\n/** @param A&B $x Text. */\nfunction f(A&B $x) \x7b\x7d".toList

/-- The names of an intersection are read as one name, so the type that the tag repeats is said not to cover it. -/
theorem intersection_uncovered :
    ∃ stream, ofSource verbatimIntersection = .ok stream ∧ ∃ token : Token, stream[10]? = some token ∧
      token.kind = .function ∧ token.parens = .between 13 19 ∧
      segmentsBetween stream.toList 13 19 = [[14, 15, 16, 17, 18]] ∧
      writtenType stream.toList 13 19 [14, 15, 16, 17, 18] = "A&B".toList ∧
      stream.parameters (10 : Nat) = .ok [⟨"$x".toList, 18, "AB".toList⟩] ∧
      documents "A&B".toList "AB".toList = false ∧
      (stream.findingsAbout 10).map (fun diagnostic => (diagnostic.position, diagnostic.code)) =
        [(4, "TypeHintMismatch")] := by
  have hrun : (ofSource verbatimIntersection).toOption.any (fun stream =>
      stream[10]?.any (fun token => token.kind = .function ∧ token.parens = .between 13 19) &&
      decide (segmentsBetween stream.toList 13 19 = [[14, 15, 16, 17, 18]]) &&
      decide (writtenType stream.toList 13 19 [14, 15, 16, 17, 18] = "A&B".toList) &&
      decide (stream.parameters (10 : Nat) = .ok [⟨"$x".toList, 18, "AB".toList⟩]) &&
      decide ((stream.findingsAbout 10).map (fun diagnostic => (diagnostic.position, diagnostic.code)) =
        [(4, "TypeHintMismatch")])) = true := by
    decide +kernel
  obtain ⟨stream, h, hat⟩ := exists_eq_ok_of_any hrun
  simp only [Bool.and_eq_true, Option.any_eq_true, decide_eq_true_eq] at hat
  obtain ⟨⟨⟨⟨⟨token, hi, hk, hparens⟩, hsegments⟩, hwritten⟩, hparameters⟩, hfindings⟩ := hat
  exact ⟨stream, h, token, hi, hk, hparens, hsegments, hwritten, hparameters, by decide +kernel, hfindings⟩

end Stream

end DocLint
