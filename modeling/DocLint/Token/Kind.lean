/-!
# Kinds of tokens

Every token has a kind. The kinds of a doc comment's parts, of keywords and of brackets are what the
rules look at; all that matters to no rule is an `operator`. The label of a kind is the name under
which listings and messages show it.
-/

namespace DocLint

/-- The kind of a token. -/
inductive Kind where
  /-- Text outside code. -/
  | inlineHtml
  /-- `<?php`, `<?=` or `<?`. -/
  | openTag
  /-- `?>`. -/
  | closeTag
  /-- A run of blanks and newlines. -/
  | gap
  /-- A line comment, or a block comment that is no doc comment. -/
  | comment
  /-- `/**`. -/
  | docOpen
  /-- The `*/` of a doc comment. -/
  | docClose
  /-- A newline, or a run of blanks, in a doc comment. -/
  | docGap
  /-- A star before the text of a doc comment line. -/
  | docStar
  /-- `@name` at the start of a doc comment line. -/
  | docTag
  /-- The text of a doc comment line, or what follows its tag. -/
  | docText
  /-- `function` that declares a name. -/
  | function
  /-- `function` without a name. -/
  | closure
  /-- `fn` before a parameter list. -/
  | arrow
  /-- `return`. -/
  | returnWord
  /-- `use`. -/
  | useWord
  /-- `class`. -/
  | classWord
  /-- `interface`. -/
  | interfaceWord
  /-- `trait`. -/
  | traitWord
  /-- `enum`. -/
  | enumWord
  /-- `public`. -/
  | publicWord
  /-- `protected`. -/
  | protectedWord
  /-- `private`. -/
  | privateWord
  /-- `static`. -/
  | staticWord
  /-- `abstract`. -/
  | abstractWord
  /-- `final`. -/
  | finalWord
  /-- `readonly`. -/
  | readonlyWord
  /-- `null`. -/
  | nullWord
  /-- `true`. -/
  | trueWord
  /-- `false`. -/
  | falseWord
  /-- A word that is no keyword where it stands: a name, a type, a constant. -/
  | word
  /-- `$` and a word. -/
  | variableName
  /-- A quoted string or a heredoc. -/
  | quoted
  /-- A whole number. -/
  | integer
  /-- A number with a point or an exponent. -/
  | real
  /-- `{`. -/
  | openBrace
  /-- `}`. -/
  | closeBrace
  /-- `(`. -/
  | openParen
  /-- `)`. -/
  | closeParen
  /-- `[`. -/
  | openSquare
  /-- `]`. -/
  | closeSquare
  /-- `#[`, closed by `]`. -/
  | openAttribute
  /-- `;`. -/
  | semicolon
  /-- `,`. -/
  | comma
  /-- `=`. -/
  | equal
  /-- `&`. -/
  | ampersand
  /-- `...`. -/
  | ellipsis
  /-- `?`. -/
  | question
  /-- `:`. -/
  | colon
  /-- Every other operator or character. -/
  | operator
  deriving DecidableEq

namespace Kind

/-- Every kind, in the order of declaration. -/
def all : List Kind :=
  [.inlineHtml, .openTag, .closeTag, .gap, .comment, .docOpen, .docClose, .docGap, .docStar,
   .docTag, .docText, .function, .closure, .arrow, .returnWord, .useWord, .classWord,
   .interfaceWord, .traitWord, .enumWord, .publicWord, .protectedWord, .privateWord, .staticWord,
   .abstractWord, .finalWord, .readonlyWord, .nullWord, .trueWord, .falseWord, .word, .variableName,
   .quoted, .integer, .real, .openBrace, .closeBrace, .openParen, .closeParen, .openSquare,
   .closeSquare, .openAttribute, .semicolon, .comma, .equal, .ampersand, .ellipsis, .question,
   .colon, .operator]

/-- The name under which a kind is shown. -/
def label : Kind → String
  | .inlineHtml => "INLINE_HTML"
  | .openTag => "OPEN_TAG"
  | .closeTag => "CLOSE_TAG"
  | .gap => "WHITESPACE"
  | .comment => "COMMENT"
  | .docOpen => "DOC_COMMENT_OPEN_TAG"
  | .docClose => "DOC_COMMENT_CLOSE_TAG"
  | .docGap => "DOC_COMMENT_WHITESPACE"
  | .docStar => "DOC_COMMENT_STAR"
  | .docTag => "DOC_COMMENT_TAG"
  | .docText => "DOC_COMMENT_STRING"
  | .function => "FUNCTION"
  | .closure => "CLOSURE"
  | .arrow => "FN"
  | .returnWord => "RETURN"
  | .useWord => "USE"
  | .classWord => "CLASS"
  | .interfaceWord => "INTERFACE"
  | .traitWord => "TRAIT"
  | .enumWord => "ENUM"
  | .publicWord => "PUBLIC"
  | .protectedWord => "PROTECTED"
  | .privateWord => "PRIVATE"
  | .staticWord => "STATIC"
  | .abstractWord => "ABSTRACT"
  | .finalWord => "FINAL"
  | .readonlyWord => "READONLY"
  | .nullWord => "NULL"
  | .trueWord => "TRUE"
  | .falseWord => "FALSE"
  | .word => "STRING"
  | .variableName => "VARIABLE"
  | .quoted => "CONSTANT_ENCAPSED_STRING"
  | .integer => "LNUMBER"
  | .real => "DNUMBER"
  | .openBrace => "OPEN_CURLY_BRACKET"
  | .closeBrace => "CLOSE_CURLY_BRACKET"
  | .openParen => "OPEN_PARENTHESIS"
  | .closeParen => "CLOSE_PARENTHESIS"
  | .openSquare => "OPEN_SQUARE_BRACKET"
  | .closeSquare => "CLOSE_SQUARE_BRACKET"
  | .openAttribute => "ATTRIBUTE"
  | .semicolon => "SEMICOLON"
  | .comma => "COMMA"
  | .equal => "EQUAL"
  | .ampersand => "BITWISE_AND"
  | .ellipsis => "ELLIPSIS"
  | .question => "NULLABLE"
  | .colon => "COLON"
  | .operator => "OPERATOR"

/-- The kind that is shown under a name. -/
def ofLabel? (label : String) : Option Kind := all.find? (·.label == label)

/-! ## Classes of kinds -/

/-- Parts of a doc comment, its delimiters included. -/
def isDoc : Kind → Bool
  | docOpen | docClose | docGap | docStar | docTag | docText => true
  | _ => false

/-- White space and comments, which mean nothing to the code around them. -/
def isSilent (kind : Kind) : Bool := kind == gap || kind == comment || kind.isDoc

/-- Keywords that may stand before the `function` of a method. -/
def isModifier : Kind → Bool
  | publicWord | protectedWord | privateWord | staticWord | abstractWord | finalWord
  | readonlyWord => true
  | _ => false

/-- Declarations that are looked up by their name. -/
def isDeclaration : Kind → Bool
  | function | classWord | interfaceWord | traitWord | enumWord => true
  | _ => false

/-- Declarations with a body in braces, named or not. -/
def ownsScope (kind : Kind) : Bool := kind.isDeclaration || kind == closure

/-- The kind of bracket that closes an opening bracket. -/
def closedBy : Kind → Option Kind
  | openBrace => some closeBrace
  | openParen => some closeParen
  | openSquare | openAttribute => some closeSquare
  | _ => none

/-- Closing brackets. -/
def isCloser : Kind → Bool
  | closeBrace | closeParen | closeSquare => true
  | _ => false

/-- The keywords, in lower case. -/
def keywords : List (String × Kind) :=
  [("function", .function), ("fn", .arrow), ("return", .returnWord), ("use", .useWord),
   ("class", .classWord), ("interface", .interfaceWord), ("trait", .traitWord), ("enum", .enumWord),
   ("public", .publicWord), ("protected", .protectedWord), ("private", .privateWord),
   ("static", .staticWord), ("abstract", .abstractWord), ("final", .finalWord),
   ("readonly", .readonlyWord), ("null", .nullWord), ("true", .trueWord), ("false", .falseWord)]

end Kind

end DocLint
