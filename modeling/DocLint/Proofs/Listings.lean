import DocLint.Proofs.Heredocs
import DocLint.Proofs.PathTexts
import DocLint.Proofs.Positions
import DocLint.Proofs.QuotedText
import DocLint.Token.Dump
import Mathlib.Data.List.Basic

/-!
# Reading listings back

A listing has one row for each token, and each row can be read back: the number of the token, its place, its kind, its
content and its links (`Token.ofRow?_row`). In front of the links every part tells where it ends. The links are a list
of entries with labels, of which only those are written that have a value; no label starts like another, so each value
is found behind its label (`findSome?_written`). One thing is not written: the closing end of a link that does not
open. The links of a stream have both ends or none, so its listing tells the whole stream, and with it the source.
-/

namespace DocLint

/-! ## Numbers -/

namespace Text

/-- The number that a text starts with. -/
def toInt? (text : Text) : Option Int := (readInt? text).map (·.1)

theorem toInt?_ofInt (n : Int) : toInt? (ofInt n) = some n := by
  have hnil : ∀ c, ([] : Text).head? = some c → c.isDigit = false := by simp
  have hread := readInt?_ofInt hnil n
  rw [List.append_nil] at hread
  rw [toInt?, hread]
  rfl

/-- An index that may be missing is read back. -/
theorem toInt?_map_ofInt (index : Option Int) : (index.map ofInt).bind toInt? = index := by
  cases index with
  | none => rfl
  | some n => exact toInt?_ofInt n

/-- Numbers with commas between them, if there are any. -/
def ofInts? (ints : List Int) : Option Text := if ints.isEmpty then none else some (join [','] (ints.map ofInt))

/-- The numbers between the commas of a text. -/
def toInts (text : Text) : List Int := (splitWhere (· == ',') text).filterMap toInt?

theorem toInts_join {ints : List Int} (hne : ints ≠ []) : toInts (join [','] (ints.map ofInt)) = ints := by
  have hcomma : ∀ part ∈ ints.map ofInt, ∀ c ∈ part, (c == ',') = false := by
    intro part hpart c hc
    obtain ⟨n, _, rfl⟩ := List.mem_map.1 hpart
    exact beq_false_of_ne (ne_of_mem_ofInt hc (by decide) rfl)
  have hread : toInt? ∘ ofInt = some := funext toInt?_ofInt
  rw [toInts, splitWhere_join rfl (by simpa using hne) hcomma, List.filterMap_map, hread, List.filterMap_some]

theorem toInts_ofInts? (ints : List Int) : ((ofInts? ints).map toInts).getD [] = ints := by
  unfold ofInts?
  by_cases hempty : ints = []
  · rw [hempty]
    rfl
  · rw [if_neg (by simpa using hempty)]
    exact toInts_join hempty

/-! ## Texts without white space -/

/-- No character of the text is white space. -/
def Unspaced (text : Text) : Prop := ∀ c ∈ text, isGap c = false

theorem unspaced_of_all {text : Text} (h : text.all (!isGap ·) = true) : Unspaced text := by
  intro c hc
  simpa using List.all_eq_true.1 h c hc

theorem Unspaced.not_mem {text : Text} (h : Unspaced text) {c : Char} (hc : isGap c = true) : c ∉ text := by
  intro hm
  rw [h c hm] at hc
  cases hc

theorem Unspaced.append {front back : Text} (hf : Unspaced front) (hb : Unspaced back) : Unspaced (front ++ back) := by
  intro c hc
  rcases List.mem_append.1 hc with hc | hc
  · exact hf c hc
  · exact hb c hc

theorem unspaced_ofInt (n : Int) : Unspaced (ofInt n) := by
  intro c hc
  have hne : ∀ mark : Char, mark ≠ '-' → mark.isDigit = false → c ≠ mark := fun mark => ne_of_mem_ofInt hc
  simp [isGap, isBlank, isNewline, hne ' ', hne '\t', hne '\x0d', hne '\n']

theorem mem_join_cases {mark : Char} {parts : List Text} {c : Char} (h : c ∈ join [mark] parts) :
    c = mark ∨ ∃ part ∈ parts, c ∈ part := by
  induction parts with
  | nil => cases h
  | cons first rest ih =>
    cases rest with
    | nil =>
      have hjoin : join [mark] [first] = first := by simp [join]
      exact Or.inr ⟨first, List.mem_cons_self, hjoin ▸ h⟩
    | cons second rest =>
      rw [join_cons_cons, List.mem_append, List.mem_append, List.mem_singleton] at h
      rcases h with h | h | h
      · exact Or.inr ⟨first, List.mem_cons_self, h⟩
      · exact Or.inl h
      · rcases ih h with h | ⟨part, hpart, h⟩
        · exact Or.inl h
        · exact Or.inr ⟨part, List.mem_cons_of_mem _ hpart, h⟩

theorem unspaced_map_ofInt {index : Option Int} {value : Text} (h : index.map ofInt = some value) :
    Unspaced value := by
  obtain ⟨n, _, rfl⟩ := Option.map_eq_some_iff.1 h
  exact unspaced_ofInt n

theorem unspaced_ofInts? {ints : List Int} {value : Text} (h : ofInts? ints = some value) : Unspaced value := by
  unfold ofInts? at h
  split at h
  · cases h
  · cases h
    intro c hc
    rcases mem_join_cases hc with rfl | ⟨part, hpart, hc⟩
    · rfl
    · obtain ⟨n, _, rfl⟩ := List.mem_map.1 hpart
      exact unspaced_ofInt n c hc

/-- Lines are split where they end, and an empty text is left. -/
theorem splitWhere_flatMap {p : Char → Bool} {c : Char} (hc : p c = true) {parts : List Text}
    (h : ∀ part ∈ parts, ∀ c ∈ part, p c = false) : splitWhere p (parts.flatMap (· ++ [c])) = parts ++ [[]] := by
  induction parts with
  | nil => rfl
  | cons part parts ih =>
    rw [List.flatMap_cons, List.append_assoc, List.singleton_append, splitWhere_append (h part List.mem_cons_self) hc,
      ih fun other hm => h other (List.mem_cons_of_mem _ hm), List.cons_append]

/-! ## Entries with labels -/

/-- A label with its value, if there is one. -/
def written (entry : Text × Option Text) : Option Text := entry.2.map (entry.1 ++ ·)

/-- A label is not found in an entry that starts with another character. -/
theorem after?_append_of_head {label other : Text} (hlabel : label ≠ []) (hother : other ≠ [])
    (h : label.head? ≠ other.head?) (value : Text) : after? label (other ++ value) = none := by
  obtain ⟨d, label, rfl⟩ := List.exists_cons_of_ne_nil hlabel
  obtain ⟨c, other, rfl⟩ := List.exists_cons_of_ne_nil hother
  apply after?_of_ne
  rintro rfl
  exact h rfl

/-- The value that is found behind a label is the one that was written there, if no two labels start alike. -/
theorem findSome?_written {entries : List (Text × Option Text)} {label : Text} {value? : Option Text}
    (hne : ∀ entry ∈ entries, entry.1 ≠ []) (hapart : entries.Pairwise fun a b => a.1.head? ≠ b.1.head?)
    (h : (label, value?) ∈ entries) : (entries.filterMap written).findSome? (after? label) = value? := by
  induction entries with
  | nil => cases h
  | cons entry entries ih =>
    obtain ⟨hfirst, hrest⟩ := List.pairwise_cons.1 hapart
    have hne' : ∀ other ∈ entries, other.1 ≠ [] := fun other hm => hne other (List.mem_cons_of_mem _ hm)
    rcases List.mem_cons.1 h with rfl | hm
    · -- no later entry has the label
      have hlater : (entries.filterMap written).findSome? (after? label) = none := by
        rw [List.findSome?_eq_none_iff]
        intro text htext
        obtain ⟨⟨other, value⟩, hm, hwritten⟩ := List.mem_filterMap.1 htext
        obtain ⟨value, rfl, rfl⟩ := Option.map_eq_some_iff.1 hwritten
        exact after?_append_of_head (hne _ List.mem_cons_self) (hne' _ hm) (hfirst _ hm) value
      cases value? with
      | none => rw [List.filterMap_cons_none rfl, hlater]
      | some value =>
        have hwritten : written (label, some value) = some (label ++ value) := rfl
        rw [List.filterMap_cons_some hwritten, List.findSome?_cons, after?_eq_some.2 rfl]
    · have ih := ih hne' hrest hm
      obtain ⟨name, value⟩ := entry
      cases value with
      | none => rw [List.filterMap_cons_none rfl, ih]
      | some value =>
        have hwritten : written (name, some value) = some (name ++ value) := rfl
        have hnone : after? label (name ++ value) = none :=
          after?_append_of_head (hne' _ hm) (hne _ List.mem_cons_self) (hfirst _ hm).symm value
        rw [List.filterMap_cons_some hwritten, List.findSome?_cons, hnone]
        exact ih

end Text

/-! ## Links -/

/-- A link that closes also opens. -/
def Link.Opened (link : Link) : Prop := link.opener = none → link.closer = none

namespace Link

/-- What a listing shows of a link. -/
def value? (link : Link) : Option Text :=
  link.opener.map fun opener => Text.ofInt opener ++ ("..".toList ++ endText link.closer)

/-- Reads a link. -/
def ofValue? (text : Text) : Option Link :=
  (Text.readInt? text).map fun (opener, rest) => ⟨some opener, Text.toInt? (rest.drop 2)⟩

theorem ofValue?_value? {link : Link} (h : link.Opened) : (link.value?.bind ofValue?).getD {} = link := by
  obtain ⟨opener, closer⟩ := link
  cases opener with
  | none =>
    obtain rfl : closer = none := h rfl
    rfl
  | some opener =>
    have hmark : ∀ c, ("..".toList ++ endText closer).head? = some c → c.isDigit = false := by
      rintro c ⟨⟩
      rfl
    have hcloser : Text.toInt? (endText closer) = closer := by
      cases closer with
      | none => rfl
      | some closer => exact Text.toInt?_ofInt closer
    show ((ofValue? (Text.ofInt opener ++ ("..".toList ++ endText closer))).getD {}) = _
    rw [ofValue?, Text.readInt?_ofInt hmark]
    show (⟨some opener, Text.toInt? (endText closer)⟩ : Link) = _
    rw [hcloser]

theorem unspaced_value? {link : Link} {value : Text} (h : link.value? = some value) : value.Unspaced := by
  obtain ⟨opener, _, rfl⟩ := Option.map_eq_some_iff.1 h
  refine (Text.unspaced_ofInt opener).append ((Text.unspaced_of_all rfl).append ?_)
  unfold endText
  cases link.closer with
  | none => exact Text.unspaced_of_all rfl
  | some closer => exact Text.unspaced_ofInt closer

theorem entry_eq (label : String) (link : Link) :
    link.entry label = Text.written (label.toList ++ "=".toList, link.value?) := by
  unfold entry Text.written value?
  cases link.opener with
  | none => rfl
  | some opener => simp only [Option.map_some, List.append_assoc]

end Link

namespace Token

variable {token : Token}

/-- The links of a token by their labels, with those that it does not have. -/
def entries (token : Token) : List (Text × Option Text) :=
  [("scope=".toList, token.scope.value?),
   ("parens=".toList, token.parens.value?),
   ("brackets=".toList, token.brackets.value?),
   ("opener=".toList, token.comment.opener.map Text.ofInt),
   ("closer=".toList, token.comment.closer.map Text.ofInt),
   ("tags=".toList, Text.ofInts? token.tags)]

theorem linkText_eq (token : Token) :
    token.linkText = if (token.entries.filterMap Text.written).isEmpty then []
      else "  [".toList ++ Text.join [' '] (token.entries.filterMap Text.written) ++ "]".toList := by
  have hindex : ∀ (label : Text) (index : Option Int),
      (index.map fun n => label ++ Text.ofInt n) = Text.written (label, index.map Text.ofInt) := by
    intro label index
    cases index with
    | none => rfl
    | some n => rfl
  have htags : (if token.tags.isEmpty then none
      else some ("tags=".toList ++ Text.join [','] (token.tags.map Text.ofInt))) =
        Text.written ("tags=".toList, Text.ofInts? token.tags) := by
    unfold Text.ofInts?
    split
    · rfl
    · rfl
  have hentries : [token.scope.entry "scope", token.parens.entry "parens", token.brackets.entry "brackets",
      token.comment.opener.map fun opener => "opener=".toList ++ Text.ofInt opener,
      token.comment.closer.map fun closer => "closer=".toList ++ Text.ofInt closer,
      if token.tags.isEmpty then none
      else some ("tags=".toList ++ Text.join [','] (token.tags.map Text.ofInt))] = token.entries.map Text.written := by
    rw [Link.entry_eq, Link.entry_eq, Link.entry_eq, hindex, hindex, htags]
    rfl
  unfold linkText
  simp only [hentries, List.filterMap_map, Function.id_comp]

theorem entries_unspaced {entry : Text} (h : entry ∈ token.entries.filterMap Text.written) : entry.Unspaced := by
  obtain ⟨⟨label, value?⟩, hm, hwritten⟩ := List.mem_filterMap.1 h
  obtain ⟨value, hvalue, rfl⟩ := Option.map_eq_some_iff.1 hwritten
  simp only [entries, List.mem_cons, Prod.mk.injEq, List.not_mem_nil, or_false] at hm
  rcases hm with ⟨rfl, rfl⟩ | ⟨rfl, rfl⟩ | ⟨rfl, rfl⟩ | ⟨rfl, rfl⟩ | ⟨rfl, rfl⟩ | ⟨rfl, rfl⟩
  · exact (Text.unspaced_of_all rfl).append (Link.unspaced_value? hvalue)
  · exact (Text.unspaced_of_all rfl).append (Link.unspaced_value? hvalue)
  · exact (Text.unspaced_of_all rfl).append (Link.unspaced_value? hvalue)
  · exact (Text.unspaced_of_all rfl).append (Text.unspaced_map_ofInt hvalue)
  · exact (Text.unspaced_of_all rfl).append (Text.unspaced_map_ofInt hvalue)
  · exact (Text.unspaced_of_all rfl).append (Text.unspaced_ofInts? hvalue)

/-- The entries in brackets at the end of a row. -/
def rowEntries (text : Text) : List Text :=
  Text.splitWhere (· == ' ') ((Text.after? "  [".toList text).getD []).dropLast

/-- What stands behind a label at the end of a row. -/
def rowValue? (text : Text) (label : String) : Option Text := (rowEntries text).findSome? (Text.after? label.toList)

theorem rowValue?_linkText {label : String} {value? : Option Text} (h : (label.toList, value?) ∈ token.entries) :
    rowValue? token.linkText label = value? := by
  have hne : ∀ entry ∈ token.entries, entry.1 ≠ [] := by simp [entries]
  have hapart : token.entries.Pairwise fun a b => a.1.head? ≠ b.1.head? := by simp [entries]
  have hvalue := Text.findSome?_written hne hapart h
  by_cases hempty : token.entries.filterMap Text.written = []
  · -- without entries the row ends with its content, and no label is found
    rw [hempty] at hvalue
    obtain rfl : none = value? := hvalue
    have hlabel : label.toList ≠ [] := hne _ h
    obtain ⟨c, rest, hlabel⟩ := List.exists_cons_of_ne_nil hlabel
    rw [linkText_eq, hempty]
    show [[]].findSome? (Text.after? label.toList) = none
    rw [hlabel]
    rfl
  · have hspace : ∀ part ∈ token.entries.filterMap Text.written, ∀ c ∈ part, (c == ' ') = false := by
      intro part hpart c hc
      apply beq_false_of_ne
      rintro rfl
      exact (entries_unspaced hpart).not_mem rfl hc
    have hopen : Text.after? "  [".toList token.linkText =
        some (Text.join [' '] (token.entries.filterMap Text.written) ++ "]".toList) := by
      rw [linkText_eq, if_neg (by simpa using hempty), Text.after?_eq_some, List.append_assoc]
    have hlast : ∀ text : Text, (text ++ "]".toList).dropLast = text := fun text => List.dropLast_concat
    rw [rowValue?, rowEntries, hopen, Option.getD_some, hlast, Text.splitWhere_join rfl hempty hspace]
    exact hvalue

/-- Reads the links at the end of a row. -/
def withLinks (token : Token) (text : Text) : Token :=
  { token with
    scope := ((rowValue? text "scope=").bind Link.ofValue?).getD {}
    parens := ((rowValue? text "parens=").bind Link.ofValue?).getD {}
    brackets := ((rowValue? text "brackets=").bind Link.ofValue?).getD {}
    comment := ⟨(rowValue? text "opener=").bind Text.toInt?, (rowValue? text "closer=").bind Text.toInt?⟩
    tags := ((rowValue? text "tags=").map Text.toInts).getD [] }

/-- The links of a token to brackets and bodies open if they close. -/
structure Opened (token : Token) : Prop where
  scope : token.scope.Opened
  parens : token.parens.Opened
  brackets : token.brackets.Opened

theorem withLinks_linkText (h : token.Opened) :
    withLinks { kind := token.kind, content := token.content, line := token.line, column := token.column }
      token.linkText = token := by
  have hscope : rowValue? token.linkText "scope=" = token.scope.value? := rowValue?_linkText (by simp [entries])
  have hparens : rowValue? token.linkText "parens=" = token.parens.value? := rowValue?_linkText (by simp [entries])
  have hbrackets : rowValue? token.linkText "brackets=" = token.brackets.value? :=
    rowValue?_linkText (by simp [entries])
  have hopener : rowValue? token.linkText "opener=" = token.comment.opener.map Text.ofInt :=
    rowValue?_linkText (by simp [entries])
  have hcloser : rowValue? token.linkText "closer=" = token.comment.closer.map Text.ofInt :=
    rowValue?_linkText (by simp [entries])
  have htags : rowValue? token.linkText "tags=" = Text.ofInts? token.tags := rowValue?_linkText (by simp [entries])
  unfold withLinks
  rw [hscope, hparens, hbrackets, hopener, hcloser, htags, Link.ofValue?_value? h.scope, Link.ofValue?_value? h.parens,
    Link.ofValue?_value? h.brackets, Text.toInt?_map_ofInt, Text.toInt?_map_ofInt, Text.toInts_ofInts?]

/-! ## Rows -/

/-- The row of a token, which is its line without the line feed. -/
def row (token : Token) (width index : Nat) : Text :=
  Text.fill (width - (Text.ofInt index).length) ' ' ++ (Text.ofInt index ++ ' ' :: (Text.ofInt token.line ++
    ':' :: (Text.ofInt token.column ++ ' ' :: (token.kind.label.toList ++
      ' ' :: (Text.quoted token.content ++ token.linkText)))))

theorem listing_eq_row (token : Token) (width index : Nat) :
    token.listing width index = token.row width index ++ ['\n'] := by
  simp [listing, row]

/-- Reads the name of a kind. -/
def readKind? (text : Text) : Option (Kind × Text) :=
  (Kind.ofLabel? (String.ofList (text.takeWhile (· != ' ')))).map fun kind => (kind, text.dropWhile (· != ' '))

/-- Reads a row: the index of the token and the token. -/
def ofRow? (text : Text) : Option (Int × Token) := do
  let (index, rest) ← Text.readInt? (text.dropWhile (· == ' '))
  let (line, rest) ← Text.readInt? (rest.drop 1)
  let (column, rest) ← Text.readInt? (rest.drop 1)
  let (kind, rest) ← readKind? (rest.drop 1)
  let (content, rest) ← Text.unquote? (rest.drop 1)
  return (index, withLinks { kind, content, line, column } rest)

end Token

theorem Kind.mem_all (kind : Kind) : kind ∈ all := by
  cases kind <;> decide

theorem Kind.ofLabel?_label (kind : Kind) : ofLabel? kind.label = some kind := by
  have hall : ∀ kind ∈ all, ofLabel? kind.label = some kind := by decide +kernel
  exact hall kind kind.mem_all

theorem Kind.label_unspaced (kind : Kind) : Text.Unspaced kind.label.toList := by
  have hall : ∀ kind ∈ all, kind.label.toList.all (!Text.isGap ·) = true := by decide +kernel
  exact Text.unspaced_of_all (hall kind kind.mem_all)

namespace Token

variable {token : Token}

theorem readKind?_label (kind : Kind) (rest : Text) :
    readKind? (kind.label.toList ++ ' ' :: rest) = some (kind, ' ' :: rest) := by
  have hrun : Text.RunOf (· != ' ') kind.label.toList (' ' :: rest) := by
    constructor
    · intro c hc
      apply bne_iff_ne.2
      rintro rfl
      exact kind.label_unspaced.not_mem rfl hc
    · rintro c ⟨⟩
      rfl
  rw [readKind?, hrun.takeWhile_append, hrun.dropWhile_append, String.ofList_toList, Kind.ofLabel?_label]
  rfl

/-- A row is read back. -/
theorem ofRow?_row (h : token.Opened) (width index : Nat) :
    ofRow? (token.row width index) = some ((index : Int), token) := by
  have hspace : ∀ (n : Int) (rest : Text), Text.readInt? (Text.ofInt n ++ ' ' :: rest) = some (n, ' ' :: rest) := by
    intro n rest
    apply Text.readInt?_ofInt
    rintro c ⟨⟩
    rfl
  have hcolon : ∀ (n : Int) (rest : Text), Text.readInt? (Text.ofInt n ++ ':' :: rest) = some (n, ':' :: rest) := by
    intro n rest
    apply Text.readInt?_ofInt
    rintro c ⟨⟩
    rfl
  have hrun : ∀ (count : Int) (rest : Text),
      Text.RunOf (· == ' ') (Text.fill count ' ') (Text.ofInt index ++ rest) := by
    intro count rest
    constructor
    · intro c hc
      rw [List.eq_of_mem_replicate hc]
      rfl
    · intro c hc
      obtain ⟨digit, digits, hdigits⟩ := List.exists_cons_of_ne_nil (Text.ofInt_ne_nil index)
      rw [hdigits] at hc
      cases hc
      exact beq_false_of_ne (Text.ne_of_mem_ofInt (hdigits ▸ List.mem_cons_self) (by decide) rfl)
  unfold ofRow? row
  rw [(hrun _ _).dropWhile_append]
  simp only [Option.bind_eq_bind, Option.bind_some, hspace, hcolon, readKind?_label, Text.unquote?_quoted,
    List.drop_succ_cons, List.drop_zero, withLinks_linkText h]
  rfl

theorem newline_not_mem_linkText (token : Token) : '\n' ∉ token.linkText := by
  rw [linkText_eq]
  split
  · exact List.not_mem_nil
  · intro h
    rw [List.mem_append, List.mem_append] at h
    rcases h with (h | h) | h
    · revert h
      decide
    · rcases Text.mem_join_cases h with h | ⟨entry, hentry, h⟩
      · cases h
      · exact (entries_unspaced hentry).not_mem rfl h
    · revert h
      decide

theorem newline_not_mem_row (token : Token) (width index : Nat) : '\n' ∉ token.row width index := by
  have hint : ∀ n, '\n' ∉ Text.ofInt n := fun n => (Text.unspaced_ofInt n).not_mem rfl
  have hlabel : '\n' ∉ token.kind.label.toList := token.kind.label_unspaced.not_mem rfl
  have hfill : ∀ count, '\n' ∉ Text.fill count ' ' := fun count h => by cases List.eq_of_mem_replicate h
  simp [row, hint, hlabel, hfill, Text.newline_not_mem_quoted, newline_not_mem_linkText]

end Token

/-! ## Streams -/

namespace Stream

variable {source : Text} {stream : Stream}

/-- The rows of a listing. -/
def rows (stream : Stream) : List Text :=
  stream.toList.zipIdx.map fun (token, index) => token.row (Text.ofInt stream.size).length index

theorem dump_eq (stream : Stream) : stream.dump = stream.rows.flatMap (· ++ ['\n']) := by
  unfold dump rows
  rw [List.flatMap_map]
  apply List.flatMap_congr
  rintro ⟨token, index⟩ _
  exact token.listing_eq_row _ _

theorem newline_not_mem_rows {row : Text} (h : row ∈ stream.rows) : '\n' ∉ row := by
  obtain ⟨⟨token, index⟩, _, rfl⟩ := List.mem_map.1 h
  exact token.newline_not_mem_row _ _

theorem rows_getElem? {i : Nat} {token : Token} (hi : stream[i]? = some token) :
    stream.rows[i]? = some (token.row (Text.ofInt stream.size).length i) := by
  rw [← Array.getElem?_toList] at hi
  simp [rows, hi]

/-- Reads a listing: the tokens of all rows. -/
def ofDump (text : Text) : Stream :=
  ((Text.splitWhere (· == '\n') text).filterMap fun row => (Token.ofRow? row).map (·.2)).toArray

/-- The links of a stream have both ends or none. -/
theorem opened (h : ofSource source = .ok stream) {token : Token} (hm : token ∈ stream) : token.Opened := by
  have hlink : ∀ pair? : Option Pair, ((pair?.map Pair.link).getD {}).Opened := by
    intro pair? hnone
    cases pair? with
    | none => rfl
    | some pair => cases hnone
  obtain ⟨pairs, _, htie⟩ := pair_eq_ok.1 (ofSource_eq_ok.1 h).2
  obtain ⟨i, hi⟩ := Array.mem_iff_getElem?.1 hm
  rw [← Array.getElem?_toList, htie, tie_getElem?] at hi
  obtain ⟨settled, _, rfl⟩ := Option.map_eq_some_iff.1 hi
  exact ⟨hlink _, hlink _, hlink _⟩

/-- A listing tells its stream. -/
theorem ofDump_dump (h : ∀ token ∈ stream, token.Opened) : ofDump stream.dump = stream := by
  have hparts : ∀ row ∈ stream.rows, ∀ c ∈ row, (c == '\n') = false := by
    intro row hrow c hc
    apply beq_false_of_ne
    rintro rfl
    exact newline_not_mem_rows hrow hc
  have hread : ∀ entry ∈ stream.toList.zipIdx,
      (Token.ofRow? (entry.1.row (Text.ofInt stream.size).length entry.2)).map (·.2) = some entry.1 := by
    intro entry hentry
    rw [Token.ofRow?_row (h _ (Array.mem_toList_iff.1 (List.fst_mem_of_mem_zipIdx hentry)))]
    rfl
  have hnil : ([[]] : List Text).filterMap (fun row => (Token.ofRow? row).map (·.2)) = [] := rfl
  rw [ofDump, dump_eq, Text.splitWhere_flatMap rfl hparts, List.filterMap_append, hnil, List.append_nil, rows,
    List.filterMap_map]
  show (stream.toList.zipIdx.filterMap fun entry =>
    (Token.ofRow? (entry.1.row (Text.ofInt stream.size).length entry.2)).map (·.2)).toArray = stream
  rw [List.filterMap_congr hread, List.filterMap_eq_map', List.zipIdx_map_fst]

/-- A listing is faithful: it has one line for each token, each line can be read back as the token with its index, and
no other source has the same listing. -/
theorem listing_faithful (h : ofSource source = .ok stream) :
    (∃ rows : List Text, stream.dump = rows.flatMap (· ++ ['\n']) ∧ rows.length = stream.size ∧
      (∀ row ∈ rows, '\n' ∉ row) ∧ ∀ (i : Nat) (token : Token), stream[i]? = some token →
        ∃ row, rows[i]? = some row ∧ Token.ofRow? row = some ((i : Int), token)) ∧
    ∀ source' stream', ofSource source' = .ok stream' → stream'.dump = stream.dump → source' = source := by
  have hopened : ∀ token ∈ stream, token.Opened := fun token hm => opened h hm
  constructor
  · refine ⟨stream.rows, stream.dump_eq, by simp [rows], fun row hrow => newline_not_mem_rows hrow, ?_⟩
    intro i token hi
    exact ⟨_, rows_getElem? hi, Token.ofRow?_row (hopened token (Array.mem_of_getElem? hi)) _ _⟩
  · intro source' stream' h' hdump
    have hopened' : ∀ token ∈ stream', token.Opened := fun token hm => opened h' hm
    have hstream : stream' = stream := by rw [← ofDump_dump hopened', hdump, ofDump_dump hopened]
    rw [← flatMap_content_eq h', hstream, flatMap_content_eq h]

/-- A doc comment with a tag, a function with a body, and a string with both quotes, a tab and a backslash. -/
def quotedTwice : Text :=
  "<?php\n/** @return int */\nfunction f() \x7b return 'a\t\\'\"'; \x7d".toList

/-- The string is on a line of its own and is read back from it, and no other source has this listing. -/
theorem listing_faithful_quotedTwice :
    ∃ stream, ofSource quotedTwice = .ok stream ∧
      (∃ (rows : List Text) (row : Text) (token : Token), stream.dump = rows.flatMap (· ++ ['\n']) ∧
        rows.length = stream.size ∧ rows[20]? = some row ∧ Token.ofRow? row = some (20, token) ∧
        token.content = "'a\t\\'\"'".toList) ∧
      ∀ source' stream', ofSource source' = .ok stream' → stream'.dump = stream.dump → source' = quotedTwice := by
  obtain ⟨stream, h, hat⟩ := exists_eq_ok_of_any (by decide +kernel : (ofSource quotedTwice).toOption.any
    (fun stream : Stream => stream[20]?.any fun token : Token => token.content == "'a\t\\'\"'".toList) = true)
  obtain ⟨token, hi, hcontent⟩ := (Option.any_eq_true _ _).1 hat
  obtain ⟨⟨rows, hdump, hsize, _, hrows⟩, honly⟩ := listing_faithful h
  obtain ⟨row, hrow, hread⟩ := hrows 20 token hi
  exact ⟨stream, h, ⟨rows, row, token, hdump, hsize, hrow, hread, eq_of_beq hcontent⟩, honly⟩

end Stream

end DocLint
