import DocLint.Proofs.FramedText
import DocLint.Proofs.InheritDoc
import DocLint.Proofs.ReturnScan
import DocLint.Proofs.Stopping

/-!
# Mirrored streams

A stream is mirrored by one that has the same tokens, in their places and with their links, but for the way in
which line ends are written in their texts (`Mirrors`). The mirror may have more tokens; then the last token of
the stream is a semicolon or a closing brace. Whatever is read at a token of the stream, or searched for from
there, is the same in the mirror.
-/

namespace DocLint

/-- A token with the ends of lines in its text written another way. -/
def Token.spell (e : LineEnd) (token : Token) : Token := { token with content := token.content.spell e }

@[simp] theorem Token.spell_kind (e : LineEnd) (token : Token) : (token.spell e).kind = token.kind := rfl

structure Mirrors (e : LineEnd) (stream mirror : Stream) : Prop where
  token : ∀ {i : Nat} {token : Token}, stream[i]? = some token → mirror[i]? = some (token.spell e)
  ended : mirror.size = stream.size ∨ ∃ last : Token, stream[stream.size - 1]? = some last ∧
    last.kind.endsStatement = true

theorem Token.endLine_spell (e : LineEnd) (token : Token) : (token.spell e).endLine = token.endLine := by
  rw [endLine, endLine, spell, Text.count_spell]

namespace Mirrors

variable {e : LineEnd} {stream mirror : Stream} {i : Nat} {token : Token}

theorem size_le (h : Mirrors e stream mirror) : stream.size ≤ mirror.size := by
  rcases Nat.eq_zero_or_pos stream.size with hzero | hpos
  · omega
  · obtain ⟨last, hlast⟩ := Stream.exists_token_at (show stream.size - 1 < stream.size by omega)
    have := Stream.lt_size (h.token hlast)
    omega

theorem getElem? (h : Mirrors e stream mirror) (hi : i < stream.size) :
    mirror[i]? = stream[i]?.map (·.spell e) := by
  obtain ⟨token, ht⟩ := Stream.exists_token_at hi
  rw [h.token ht, ht]
  rfl

/-- A token that does not end a statement is not the last one before the mirror goes on by itself. -/
theorem next (h : Mirrors e stream mirror) (hi : stream[i]? = some token)
    (hk : token.kind.endsStatement = false) : i + 1 < stream.size ∨ mirror.size = stream.size := by
  rcases h.ended with hsize | ⟨last, hlast, hend⟩
  · exact Or.inr hsize
  · refine Or.inl ?_
    have hlt := Stream.lt_size hi
    by_contra hnot
    obtain rfl : i = stream.size - 1 := by omega
    obtain rfl := Option.some.inj (hi.symm.trans hlast)
    rw [hk] at hend
    cases hend

/-- Text between two tokens of the stream. -/
theorem textBetween (h : Mirrors e stream mirror) {first last : Nat} (hlast : last ≤ stream.size) :
    mirror.textBetween first last = Text.spell e (stream.textBetween first last) := by
  have hrange : (mirror.extract first last).toList =
      (stream.extract first last).toList.map (·.spell e) := by
    refine List.ext_getElem? fun j => ?_
    have hle := h.size_le
    rw [List.getElem?_map, Array.getElem?_toList, Array.getElem?_toList, Array.getElem?_extract,
      Array.getElem?_extract, Nat.min_eq_left hlast, Nat.min_eq_left (by omega)]
    split
    · exact h.getElem? (by omega)
    · rfl
  rw [Stream.textBetween_eq_extract, Stream.textBetween_eq_extract, hrange]
  induction (stream.extract first last).toList with
  | nil => rfl
  | cons token rest ih =>
    rw [List.map_cons, List.flatMap_cons, List.flatMap_cons, ih, Text.spell_append]
    rfl

/-! ## Searches -/

theorem accepts (h : Mirrors e stream mirror) {query : Query} (hq : query.content = none)
    (hi : i < stream.size) : mirror.accepts query i = stream.accepts query i := by
  rw [Stream.accepts, Stream.accepts, h.getElem? hi]
  cases stream[i]? with
  | none => rfl
  | some token =>
    simp only [Option.map_some, Option.any_some, Query.accepts, hq]
    rfl

end Mirrors

theorem firstIndex_congr {p q : Nat → Bool} {first count : Nat}
    (h : ∀ j, first ≤ j → j < first + count → p j = q j) :
    firstIndex p first count = firstIndex q first count := by
  induction count generalizing first with
  | zero => rfl
  | succ count ih =>
    rw [firstIndex, firstIndex, h first (Nat.le_refl _) (by omega),
      ih fun j hj hlt => h j (by omega) (by omega)]

theorem lastIndex_congr {p q : Nat → Bool} {low high : Nat} (h : ∀ j, j < high → p j = q j) :
    lastIndex p low high = lastIndex q low high := by
  induction high with
  | zero => rfl
  | succ high ih =>
    rw [lastIndex, lastIndex, h high (by omega), ih fun j hj => h j (by omega)]

namespace Mirrors

variable {e : LineEnd} {stream mirror : Stream} {i : Nat} {token : Token} {query : Query}

theorem findPrevious (h : Mirrors e stream mirror) (hq : query.content = none) {start : Int}
    {stop : Option Int} (hstart : start < stream.size) :
    mirror.findPrevious query start stop = stream.findPrevious query start stop := by
  have hle := h.size_le
  rw [Stream.findPrevious, Stream.findPrevious]
  by_cases hneg : start < 0
  · rw [if_pos (by simp [hneg]), if_pos (by simp [hneg])]
  · have hout : ¬ (decide (start < 0) || decide ((mirror.size : Int) ≤ start)) = true := by
      simp only [Bool.or_eq_true, decide_eq_true_eq]
      omega
    have hout' : ¬ (decide (start < 0) || decide ((stream.size : Int) ≤ start)) = true := by
      simp only [Bool.or_eq_true, decide_eq_true_eq]
      omega
    rw [if_neg hout, if_neg hout']
    exact lastIndex_congr fun j hj => h.accepts hq (by omega)

theorem findNext_before (h : Mirrors e stream mirror) (hq : query.content = none) {start stop : Int}
    (hstop : stop ≤ stream.size) :
    mirror.findNext query start (some stop) = stream.findNext query start (some stop) := by
  have hle := h.size_le
  rw [Stream.findNext, Stream.findNext]
  by_cases hneg : start < 0
  · rw [if_pos hneg, if_pos hneg]
  · rw [if_neg hneg, if_neg hneg]
    simp only [Option.getD_some]
    rw [Int.min_eq_left (show stop ≤ (mirror.size : Int) by omega), Int.min_eq_left hstop]
    exact firstIndex_congr fun j hj hlt => h.accepts hq (by omega)

/-- A search that comes to a token of the stream comes to it in the mirror. -/
theorem findNext_eq_some (h : Mirrors e stream mirror) (hq : query.content = none) {start : Int}
    (hfound : stream.findNext query start = some i) : mirror.findNext query start = some i := by
  have hle := h.size_le
  obtain ⟨h0, hstart, -, hi, hacc, hbefore⟩ := Stream.findNext_eq_some.1 hfound
  refine Stream.findNext_eq_some.2 ⟨h0, hstart, ?_, by omega, ?_, fun j hj hji => ?_⟩
  · simp only [Option.getD_none]
    omega
  · rw [h.accepts hq hi, hacc]
  · rw [h.accepts hq (by omega), hbefore j hj hji]

/-- The end of a statement stops a search, so that it does not leave the stream. -/
theorem findNext (h : Mirrors e stream mirror) (hq : query.content = none) {start : Nat}
    (hstart : start < stream.size ∨ mirror.size = stream.size)
    (hend : ∀ token : Token, token.kind.endsStatement = true → query.accepts token = true) :
    mirror.findNext query start = stream.findNext query start := by
  by_cases hsize : mirror.size = stream.size
  · rw [Stream.findNext, Stream.findNext, hsize]
    by_cases hneg : (start : Int) < 0
    · omega
    · rw [if_neg hneg, if_neg hneg]
      exact firstIndex_congr fun j hj hlt => h.accepts hq (by
        simp only [Option.getD_none] at hlt
        omega)
  · obtain ⟨last, hlast, hk⟩ := h.ended.resolve_left hsize
    have hin := hstart.resolve_right hsize
    obtain ⟨found, hfound, -⟩ : ∃ found, stream.findNext query start none = some found ∧
        start ≤ found ∧ found ≤ stream.size - 1 :=
      Stream.exists_findNext (by omega) (by simp; omega)
        (Stream.accepts_eq_true.2 ⟨last, hlast, hend last hk⟩)
    rw [hfound, h.findNext_eq_some hq hfound]

/-! ## Comments -/

theorem lastBefore (h : Mirrors e stream mirror) (hi : i ≤ stream.size) :
    mirror.lastBefore i = stream.lastBefore i :=
  h.findPrevious rfl (by omega)

theorem remarkTarget? (h : Mirrors e stream mirror) (hi : i < stream.size) :
    mirror.remarkTarget? i = stream.remarkTarget? i := by
  obtain ⟨token, ht⟩ := Stream.exists_token_at hi
  simp only [Stream.remarkTarget?, h.token ht, ht, h.lastBefore (Nat.le_of_lt hi)]
  cases hlast : stream.lastBefore i with
  | none => rfl
  | some earlier =>
    have hlt := (Stream.lastBefore_eq_some (Nat.le_of_lt hi) hlast).1
    obtain ⟨before, hb⟩ := Stream.exists_token_at (show earlier < stream.size by omega)
    simp only [Option.bind_eq_bind, Option.bind_some, h.token hb, hb, Token.endLine_spell]
    rfl

theorem locateComment (h : Mirrors e stream mirror) (hi : i ≤ stream.size) :
    mirror.locateComment i = stream.locateComment i := by
  simp only [Stream.locateComment, h.lastBefore hi]
  cases hlast : stream.lastBefore i with
  | none => rfl
  | some last =>
    have hlt := (Stream.lastBefore_eq_some hi hlast).1
    simp only [Option.bind_eq_bind, Option.bind_some, h.remarkTarget? (show last < stream.size by omega)]
    have hfound : (stream.remarkTarget? last).getD last < stream.size := by
      cases htarget : stream.remarkTarget? last with
      | none =>
        rw [Option.getD_none]
        omega
      | some target =>
        have hbefore := (Stream.remarkTarget?_eq_some htarget).2
        have := (Stream.lastBefore_eq_some (by omega) hbefore).1
        rw [Option.getD_some]
        omega
    obtain ⟨token, ht⟩ := Stream.exists_token_at hfound
    rw [h.token ht, ht]
    rfl

theorem docGroup (h : Mirrors e stream mirror) {o c : Nat} {tags : List Int}
    (hg : DocGroup stream.toList o c tags) : DocGroup mirror.toList o c tags := by
  have hat : ∀ {j : Nat} {token : Token}, stream.toList[j]? = some token →
      mirror.toList[j]? = some (token.spell e) := by
    intro j token ht
    rw [Array.getElem?_toList] at ht ⊢
    exact h.token ht
  obtain ⟨opener, ho, hopener⟩ := hg.opener
  obtain ⟨closer, hc, hcloser⟩ := hg.closer
  refine ⟨hg.lt, ⟨_, hat ho, hopener⟩, ⟨_, hat hc, hcloser⟩, fun i hi hic => ?_, hg.sorted,
    fun index => ?_⟩
  · obtain ⟨inner, hinner, hk⟩ := hg.inner i hi hic
    exact ⟨_, hat hinner, hk⟩
  · rw [hg.mem_tags]
    constructor
    · rintro ⟨i, token, hindex, hi, hic, ht, hk⟩
      exact ⟨i, _, hindex, hi, hic, hat ht, hk⟩
    · rintro ⟨i, token, hindex, hi, hic, ht, hk⟩
      obtain ⟨inner, hinner, -⟩ := hg.inner i hi hic
      obtain rfl := Option.some.inj ((hat hinner).symm.trans ht)
      exact ⟨i, inner, hindex, hi, hic, hinner, hk⟩

theorem commentAt (h : Mirrors e stream mirror) {o c : Nat} {tags : List Int}
    (hc : CommentAt stream o c tags) : CommentAt mirror o c tags := by
  cases hc with
  | plain ht kind closer tags => exact .plain (h.token ht) kind closer tags
  | doc hg => exact .doc (h.docGroup hg)

theorem keepContent (h : Mirrors e stream mirror) {name : Text} (hname : '\n' ∉ name)
    {indices : List Int} (hin : ∀ index ∈ indices, stream.Inside index) :
    mirror.keepContent name indices = stream.keepContent name indices := by
  induction indices with
  | nil => rfl
  | cons index rest ih =>
    obtain ⟨i, token, rfl, ht⟩ := (hin index List.mem_cons_self).exists_token
    rw [Stream.keepContent, Stream.keepContent, Stream.fetch_at ht, Stream.fetch_at (h.token ht),
      ih fun later hm => hin later (List.mem_cons_of_mem _ hm)]
    simp only [bind, Except.bind, Token.spell, Text.spell_beq_mark hname]

/-- A comment that is read in the stream is read in the mirror, with its tags at the same indices. -/
theorem reads (h : Mirrors e stream mirror) {o c : Nat} {comment : DocComment}
    (hr : Reads stream o c comment) :
    ∃ mirrored, Reads mirror o c mirrored ∧ ∀ name, '\n' ∉ name →
      (mirrored.tagsNamed name).map (·.index) = (comment.tagsNamed name).map (·.index) := by
  obtain ⟨mirrored, hm⟩ := (h.commentAt hr.commentAt).exists_reads
  refine ⟨mirrored, hm, fun name hname => ?_⟩
  obtain ⟨token, ht, -, htags⟩ := hr.commentAt.opener
  have hsame : mirror.tagsNamed o name = stream.tagsNamed o name := by
    rw [Stream.tagsNamed, Stream.tagsNamed, Stream.fetch_at ht, Stream.fetch_at (h.token ht)]
    refine h.keepContent hname fun index hindex => hr.commentAt.tag_inside ?_
    rw [← htags]
    exact hindex
  rw [hm.named, hr.named] at hsame
  exact Except.ok.inj hsame

theorem tagContent (h : Mirrors e stream mirror) {tag stop : Int} (htag : stream.Inside tag)
    (hstop : stop ≤ stream.size) :
    mirror.tagContent tag stop = (stream.tagContent tag stop).map (Text.spell e) := by
  obtain ⟨i, token, rfl, ht⟩ := htag.exists_token
  have hsearch : mirror.findNext { kinds := [.docText] } (i : Int) (some stop) =
      stream.findNext { kinds := [.docText] } (i : Int) (some stop) :=
    h.findNext_before rfl hstop
  simp only [Stream.tagContent, hsearch, Stream.token?_at ht, Stream.token?_at (h.token ht)]
  cases hfound : stream.findNext { kinds := [.docText] } (i : Int) (some stop) with
  | none => rfl
  | some found =>
    obtain ⟨text, htext⟩ := Stream.exists_token_at (Stream.findNext_eq_some.1 hfound).2.2.2.1
    simp only [Option.bind_eq_bind, Option.bind_some, h.token htext, htext]
    by_cases hline : text.line = token.line
    · simp [guard, Token.spell, hline]
    · simp only [guard, Token.spell, hline, beq_iff_eq, if_false]
      rfl

theorem inheritsDoc (h : Mirrors e stream mirror) (hs : stream.Sound) (hi : i ≤ stream.size) :
    mirror.inheritsDoc i = stream.inheritsDoc i := by
  have hquery : ({ kinds := [.docOpen] } : Query).content = none := rfl
  rw [Stream.inheritsDoc, Stream.inheritsDoc, h.findPrevious hquery (by omega)]
  cases hopen : stream.findPrevious { kinds := [.docOpen] } ((i : Int) - 1) with
  | none => rfl
  | some o =>
    obtain ⟨c, tags, hg⟩ := hs.group_of_docOpen ((Stream.findPrevious_before hi).1 hopen).2.1
    have hc : c < stream.size := (CommentAt.doc hg).lt_size
    simp only [hg.findNext_docClose, (h.docGroup hg).findNext_docClose,
      h.textBetween (Nat.le_of_lt hc), Text.hasInheritMarker_spell]

/-! ## Declarations -/

theorem declaredName (h : Mirrors e stream mirror) (hi : stream[i]? = some token)
    (hk : token.kind = .function) :
    mirror.declaredName i = (stream.declaredName i).map (Option.map (Text.spell e)) := by
  -- the end of a statement is not silent, so the search for the name stops there
  have hstops : ∀ token : Token, token.kind.endsStatement = true →
      Query.accepts { kinds := .ampersand :: Kind.silent, exclude := true } token = true := by
    intro token hend
    have hkinds : ∀ kind : Kind, kind.endsStatement = true →
        (!(Kind.ampersand :: Kind.silent).contains kind) = true := by
      intro kind
      cases kind <;> decide
    exact hkinds token.kind hend
  have hsearch : mirror.findNext { kinds := .ampersand :: Kind.silent, exclude := true } ((i : Int) + 1) =
      stream.findNext { kinds := .ampersand :: Kind.silent, exclude := true } ((i : Int) + 1) :=
    h.findNext rfl (h.next hi (by rw [hk]; rfl)) hstops
  rw [Stream.declaredName_function hi hk, Stream.declaredName_function (h.token hi) hk, hsearch]
  cases hfound : stream.findNext { kinds := .ampersand :: Kind.silent, exclude := true } ((i : Int) + 1) with
  | none => rfl
  | some found =>
    obtain ⟨name, hname⟩ := Stream.exists_token_at (Stream.findNext_eq_some.1 hfound).2.2.2.1
    simp only [Option.bind_some, h.token hname, hname, Token.spell]
    split
    · rfl
    · rfl

/-! ## Parameters -/

end Mirrors

/-- A parameter with the ends of lines in its texts written another way. -/
def Parameter.spell (e : LineEnd) (parameter : Parameter) : Parameter :=
  { parameter with name := parameter.name.spell e, hint := parameter.hint.spell e }

namespace Mirrors

variable {e : LineEnd} {stream mirror : Stream} {i : Nat} {token : Token}

theorem segments (h : Mirrors e stream mirror) {stop : Int} (hstop : stop ≤ stream.size) (index : Int)
    (h0 : 0 ≤ index) : mirror.segments stop index = stream.segments stop index := by
  rw [Stream.segments.eq_1 mirror, Stream.segments.eq_1 stream]
  by_cases hlt : index < stop
  · obtain ⟨i, token, rfl, ht⟩ := (show stream.Inside index from ⟨h0, by omega⟩).exists_token
    have hnext := token.lt_nextIndex i
    rw [dif_pos hlt, dif_pos hlt, Stream.fetch_at ht, Stream.fetch_at (h.token ht)]
    simp only [bind, Except.bind]
    rw [h.segments hstop ((i : Int) + 1) (by omega), show (token.spell e).nextIndex i = token.nextIndex i from rfl,
      h.segments hstop (token.nextIndex i) (by omega)]
    rfl
  · rw [dif_neg hlt, dif_neg hlt]
termination_by (stop - index).toNat

theorem parameterFrom (h : Mirrors e stream mirror) (attributeEnd : Int) (hint : Text)
    {segment : List Int} (hin : ∀ inner ∈ segment, stream.Inside inner) :
    mirror.parameterFrom attributeEnd (hint.spell e) segment =
      (stream.parameterFrom attributeEnd hint segment).map (Option.map (·.spell e)) := by
  induction segment generalizing attributeEnd hint with
  | nil => rfl
  | cons index rest ih =>
    have hrest := fun attributeEnd hint =>
      ih attributeEnd hint fun inner hm => hin inner (List.mem_cons_of_mem _ hm)
    obtain ⟨i, token, rfl, ht⟩ := (hin index List.mem_cons_self).exists_token
    rw [Stream.parameterFrom, Stream.parameterFrom, Stream.fetch_at ht, Stream.fetch_at (h.token ht)]
    simp only [bind, Except.bind, Token.spell]
    split
    · exact hrest _ _
    · split
      · exact hrest _ _
      · rfl
      · exact hrest _ _
      · exact hrest _ _
      · split
        · exact hrest _ _
        · rw [← Text.spell_append]
          exact hrest _ _

theorem parametersIn (h : Mirrors e stream mirror) {segments : List (List Int)}
    (hin : ∀ segment ∈ segments, ∀ inner ∈ segment, stream.Inside inner) :
    mirror.parametersIn segments =
      (stream.parametersIn segments).map (List.map (·.spell e)) := by
  induction segments with
  | nil => rfl
  | cons segment rest ih =>
    have hfirst := h.parameterFrom (-1) [] (hin segment List.mem_cons_self)
    rw [Text.spell_nil] at hfirst
    rw [Stream.parametersIn, Stream.parametersIn, hfirst,
      ih fun later hm => hin later (List.mem_cons_of_mem _ hm)]
    cases stream.parameterFrom (-1) [] segment with
    | error fault => rfl
    | ok parameter =>
      cases stream.parametersIn rest with
      | error fault => rfl
      | ok parameters =>
        cases parameter with
        | none => rfl
        | some parameter => rfl

theorem parameters (h : Mirrors e stream mirror) (hs : stream.Sound) (hi : stream[i]? = some token)
    (hk : token.kind = .function) :
    mirror.parameters i = (stream.parameters i).map (List.map (·.spell e)) := by
  rw [Stream.parameters, Stream.parameters, Stream.fetch_at hi, Stream.fetch_at (h.token hi)]
  simp only [bind, Except.bind, Token.spell, hk]
  by_cases hparens : token.parens = {}
  · rw [hparens]
    rfl
  · obtain ⟨o, c, hlink, -, -, hc⟩ := hs.parameters hi (Or.inl hk) hparens
    have hstop : (c : Int) ≤ stream.size := by omega
    obtain ⟨segments, hsegments, hin⟩ := hs.exists_segments hstop ((o : Int) + 1) (by omega)
    rw [hlink]
    simp only [Link.between, h.segments hstop ((o : Int) + 1) (by omega), hsegments]
    exact h.parametersIn hin

/-! ## Returned values -/

theorem valueFollows (h : Mirrors e stream mirror) (i : Nat)
    (hi : i < stream.size ∨ mirror.size = stream.size) :
    mirror.valueFollows i = stream.valueFollows i := by
  rcases Nat.lt_or_ge i stream.size with hlt | hge
  · obtain ⟨token, ht⟩ := Stream.exists_token_at hlt
    by_cases hgap : token.kind = .gap
    · rw [Stream.valueFollows_gap ht hgap, Stream.valueFollows_gap (h.token ht) hgap]
      exact valueFollows h (i + 1) (h.next ht (by rw [hgap]; rfl))
    · rw [Stream.valueFollows_token ht hgap, Stream.valueFollows_token (h.token ht) hgap]
      rfl
  · have hsize := hi.resolve_left (by omega)
    rw [Stream.valueFollows_end hge, Stream.valueFollows_end (by omega)]
termination_by stream.size - i

theorem returnsValueAt (h : Mirrors e stream mirror) (hi : stream[i]? = some token)
    (hk : token.kind = .returnWord) : mirror.returnsValueAt i = stream.returnsValueAt i :=
  h.valueFollows (i + 1) (h.next hi (by rw [hk]; rfl))

theorem visits (h : Mirrors e stream mirror) {stop k : Nat} (hv : Visits stream stop i k) :
    Visits mirror stop i k := by
  induction hv with
  | here => exact .here _
  | step hlt ht hk hvalue _ ih =>
    refine .step hlt (h.token ht) hk (fun hword => ?_) ih
    rw [h.returnsValueAt ht hword]
    exact hvalue hword
  | skip hlt ht hk hc _ ih => exact .skip hlt (h.token ht) hk hc ih

theorem halts (h : Mirrors e stream mirror) {stop k : Nat} {answer : Except Fault Bool}
    (hh : Halts stream stop k answer) : Halts mirror stop k answer := by
  cases hh with
  | done hle => exact .done hle
  | value hlt ht hk hvalue =>
    refine .value hlt (h.token ht) hk ?_
    rw [h.returnsValueAt ht hk]
    exact hvalue
  | stuck hlt ht hk hc => exact .stuck hlt (h.token ht) hk hc

/-- The scan takes the same way in the mirror, and has the same answer. -/
theorem returnsValue (h : Mirrors e stream mirror) (hs : stream.Sound) (hm : mirror.Sound)
    (hi : stream[i]? = some token) (hk : token.kind = .function) :
    mirror.returnsValue i = stream.returnsValue i := by
  by_cases hscope : token.scope = {}
  · rw [Stream.returnsValue_no_body hi hscope, Stream.returnsValue_no_body (h.token hi) hscope]
  · obtain ⟨o, c, hbetween, -, -, hsize, -⟩ := hs.body hi (Or.inl hk) hscope
    obtain ⟨start, hstart, heq⟩ := hs.returnsValue_eq hi hk hbetween
    obtain ⟨start', hstart', heq'⟩ := hm.returnsValue_eq (h.token hi) hk hbetween
    rw [h.findNext_before rfl (by omega)] at hstart'
    obtain rfl := Option.some.inj (hstart.symm.trans hstart')
    obtain ⟨k, answer, hv, hh⟩ := hs.exists_halts (Nat.le_of_lt hsize) start
    have hle := h.size_le
    rw [heq, heq', hs.scanReturns_eq hv hh (by omega),
      hm.scanReturns_eq (h.visits hv) (h.halts hh) (by omega)]

end Mirrors

end DocLint
