import ApiLoom.Document.Value

/-!
# Parsers

Documents are read by parsers from elsewhere, of which nothing is known here but their
types.  A parser that finds no document in a text either refuses the text, with an
exception of its own, or breaks off with any other exception.  A document is a `Value`: it
does not contain itself, and no text in it has half of a surrogate pair.
-/

namespace ApiLoom

/-- An exception that is not a parser's own. -/
structure ParserFault where
  className : String
  message : String
deriving DecidableEq, Repr

inductive ParserFailure where
  | refused (detail : String)
  | broken (fault : ParserFault)
deriving DecidableEq, Repr

structure Parsers where
  json : String → Except ParserFailure Value
  yaml : String → Except ParserFailure Value

end ApiLoom
