import AcsOutline.Diagnostic
import AcsOutline.Token

/-!
# Faults

The reasons for which reading a source stops.  A `Fault` names the cause and holds the tokens
or places concerned; its code, message, labels and advice are derived from that, so that each
wording is written once.
-/

namespace AcsOutline

/-- A reason for which reading a source stops. -/
inductive Fault where
  /-- The input ends where a token has to follow. -/
  | endOfInput (place : Span)
  /-- The input ends where something particular is expected. -/
  | endBefore (expected : String) (place : Span)
  /-- A token stands where something else is expected. -/
  | wrongToken (expected : String) (token : Token)
  /-- A string that the end of input cuts off. -/
  | openString (place : Span)
  /-- A body whose closing brace is missing. -/
  | openBody (what : String) (opening : Span)
  /-- A script with two modifiers of one sort. -/
  | repeatedModifier (first second : Token)
  /-- A token that starts no declaration. -/
  | unknownStart (token : Token)
  /-- A closing brace where no namespace is open. -/
  | unmatchedBrace (place : Span)
  /-- A documentation comment with a tag that has no meaning. -/
  | unknownTag (tag : String) (comment : Span)
  /-- A file that does not exist. -/
  | missingFile (path : String)
  /-- A file that exists but cannot be read. -/
  | unreadableFile (path reason : String)
  /-- A file that was read before. -/
  | repeatedFile (path : String)
  | cancelled
deriving DecidableEq, Inhabited

namespace Fault

/-- How a token is quoted in a message. -/
def quote (t : Token) : String :=
  match t.kind with
  | .string => "\"" ++ t.text ++ "\""
  | .newline => "newline"
  | _ => "`" ++ t.text ++ "`"

/-- The fault of a token that does not fit: a string that is cut off is the fault itself, and
the end of input is told apart from a wrong token. -/
def unexpected (expected : String) (t : Token) : Fault :=
  if t.isUnclosedString then openString t.span
  else if t.kind = .eof then endBefore expected t.span
  else wrongToken expected t

/-- The fault of a token that starts no declaration. -/
def noDeclaration (t : Token) : Fault :=
  if t.isUnclosedString then openString t.span else unknownStart t

/-- The code of a fault. -/
def code : Fault → ErrorCode
  | endOfInput _ | endBefore _ _ => .unexpectedEnd
  | wrongToken _ _ => .unexpectedToken
  | openString _ | openBody _ _ => .unterminated
  | repeatedModifier _ _ => .duplicateModifier
  | unknownStart _ => .unknownSymbol
  | unmatchedBrace _ => .unbalancedClose
  | unknownTag _ _ => .unknownTag
  | missingFile _ => .fileNotFound
  | unreadableFile _ _ => .fileUnreadable
  | repeatedFile _ => .fileRepeated
  | cancelled => .cancelled

/-- What a fault says. -/
def message : Fault → String
  | endOfInput _ => "unexpected end of input"
  | endBefore expected _ => "unexpected end of input, expected " ++ expected
  | wrongToken expected t => "expected " ++ expected ++ ", found " ++ quote t
  | openString _ => "string literal is never closed"
  | openBody what _ => what ++ " body is never closed"
  | repeatedModifier first second =>
    if first.isWord second.text then
      "`" ++ second.text ++ "` is given twice"
    else
      "script already has type `" ++ first.text ++ "`, found `" ++ second.text ++ "`"
  | unknownStart t => "unknown symbol `" ++ t.text ++ "`"
  | unmatchedBrace _ => "`\x7d` does not close any namespace"
  | unknownTag tag _ => "unknown documentation tag `@" ++ tag ++ "`"
  | missingFile path => "file not found: " ++ path
  | unreadableFile path reason => "failed to read " ++ path ++ ": " ++ reason
  | repeatedFile path => "`" ++ path ++ "` was already parsed in this run"
  | cancelled => "parse cancelled"

/-- The places that a fault points at. -/
def labels : Fault → List Label
  | endOfInput place | endBefore _ place => [.primary place "input ends here"]
  | wrongToken _ t => [.primary t.span "unexpected token"]
  | openString place => [.primary place "string starts here"]
  | openBody _ opening => [.primary opening "body opened here"]
  | repeatedModifier first second =>
    [.primary second.span "repeated here", .secondary first.span "first given here"]
  | unknownStart t => [.primary t.span "no declaration starts with this"]
  | unmatchedBrace place => [.primary place "unmatched closing brace"]
  | unknownTag _ comment => [.primary comment "in this comment"]
  | missingFile _ | unreadableFile _ _ | repeatedFile _ | cancelled => []

/-- The advice on a fault. -/
def help : Fault → Option String
  | openString _ => some "add the missing `\"`"
  | openBody _ _ => some "add the missing `\x7d`"
  | unknownStart _ =>
    some "expected a directive, namespace, type, function or script"
  | unmatchedBrace _ => some "remove the brace or open a namespace before it"
  | unknownTag _ _ =>
    some "known tags are @summary, @description, @param, @return, @returns and @hidden"
  | repeatedFile _ => some "remove the repeated #include"
  | _ => none

/-- The finding that reports a fault. -/
def diagnostic (f : Fault) : Diagnostic :=
  ⟨.error, some f.code, f.message, f.labels, f.help⟩

end Fault

end AcsOutline
