import AcsOutline.Span
import AcsOutline.Text.Ascii

/-!
# Tokens

The kinds of token that a source is made of.  Keywords are words that mean the same in every
mix of upper and lower case; every other word is a `symbol`, and so is any character that
starts no other token.
-/

namespace AcsOutline

/-- The words that introduce or modify declarations. -/
inductive Keyword where
  | functionWord
  | scriptWord
  | globalWord
  | worldWord
  | strictWord
  | namespaceWord
  | privateWord
  | typedefWord
  | enumWord
  | structWord
deriving DecidableEq, Inhabited

namespace Keyword

/-- How a keyword is written in lower case. -/
def spelling : Keyword → String
  | functionWord => "function"
  | scriptWord => "script"
  | globalWord => "global"
  | worldWord => "world"
  | strictWord => "strict"
  | namespaceWord => "namespace"
  | privateWord => "private"
  | typedefWord => "typedef"
  | enumWord => "enum"
  | structWord => "struct"

/-- Every keyword. -/
def all : List Keyword :=
  [functionWord, scriptWord, globalWord, worldWord, strictWord, namespaceWord, privateWord,
    typedefWord, enumWord, structWord]

/-- The keyword that a text spells, ignoring the case of ASCII letters. -/
def ofText? (text : String) : Option Keyword :=
  all.find? fun k => Text.sameWord k.spelling text

end Keyword

/-- The kind of a token. -/
inductive TokenKind where
  | eof
  | hash
  | comma
  | colon
  | semicolon
  | equals
  | lparen
  | rparen
  | lbrace
  | rbrace
  | lbracket
  | rbracket
  | dot
  | dollar
  | dash
  /-- A line break that is not skipped. -/
  | newline
  /-- A blank character that is not skipped. -/
  | whitespace
  /-- `//` where line comments are not skipped. -/
  | lineCommentStart
  /-- `/*` where block comments are not skipped. -/
  | blockCommentStart
  /-- `*/` outside a comment. -/
  | blockCommentEnd
  /-- A text in double quotes. -/
  | string
  | number
  /-- A word that is no keyword, or a character that starts nothing else. -/
  | symbol
  | keyword (word : Keyword)
deriving DecidableEq, Inhabited

namespace TokenKind

/-- The kind of a word: the keyword that it spells, or a symbol. -/
def ofWord (text : String) : TokenKind :=
  match Keyword.ofText? text with
  | some word => keyword word
  | none => symbol

/-- Whether a kind is a keyword. -/
def isKeyword : TokenKind → Bool
  | keyword _ => true
  | _ => false

/-- Whether a kind carries a name: symbols and keywords. -/
def isWord (k : TokenKind) : Bool :=
  k == symbol || k.isKeyword

/-- Every word is a symbol or a keyword. -/
theorem isWord_ofWord (text : String) : (ofWord text).isWord = true := by
  unfold ofWord
  split <;> rfl

theorem ofWord_ne (text : String) {k : TokenKind} (h : k.isWord = false) : ofWord text ≠ k := by
  rintro rfl
  rw [isWord_ofWord] at h
  cases h

/-- How a kind is named in messages. -/
def describe : TokenKind → String
  | eof => "end of input"
  | hash => "`#`"
  | comma => "`,`"
  | colon => "`:`"
  | semicolon => "`;`"
  | equals => "`=`"
  | lparen => "`(`"
  | rparen => "`)`"
  | lbrace => "`\x7b`"
  | rbrace => "`\x7d`"
  | lbracket => "`[`"
  | rbracket => "`]`"
  | dot => "`.`"
  | dollar => "`$`"
  | dash => "`-`"
  | newline => "newline"
  | whitespace => "whitespace"
  | lineCommentStart => "`//`"
  | blockCommentStart => "`/*`"
  | blockCommentEnd => "`*/`"
  | string => "string literal"
  | number => "number"
  | symbol => "identifier"
  | keyword word => "`" ++ word.spelling ++ "`"

/-- The text of a token as it is written: a string with its quotes put back. -/
def literal (k : TokenKind) (text : String) : String :=
  if k = string then "\"" ++ text ++ "\"" else text

end TokenKind

/-- A token with the place where it was read. -/
structure Token where
  kind : TokenKind
  /-- The token as written; a string without its quotes. -/
  text : String
  /-- Where the token stands, the quotes of a string included. -/
  span : Span
  /-- The line on which the token starts, counted from one. -/
  line : Nat
deriving DecidableEq, Inhabited

namespace Token

/-- What stands for the current token before the first one is read. -/
def initial : Token :=
  ⟨.eof, "", .zero, 1⟩

/-- Whether a token is a string that the end of input cuts off: its span has no room for two
quotes. -/
def isUnclosedString (t : Token) : Bool :=
  t.kind == .string && t.span.length < t.text.utf8ByteSize + 2

/-- Whether a token is the symbol `word`, ignoring the case of ASCII letters. -/
def isWord (t : Token) (word : String) : Bool :=
  t.kind == .symbol && Text.sameWord t.text word

/-- A token as it is written, with the quotes of a string put back. -/
def literal (t : Token) : String :=
  t.kind.literal t.text

end Token

end AcsOutline
