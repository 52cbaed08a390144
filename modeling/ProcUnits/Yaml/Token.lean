/-!
Tokens: what a YAML text is cut into before its nodes are read.

Block structure, which a text shows by indentation, is made explicit: a collection is opened
when its first line is indented deeper than what surrounds it, and closed by `blockEnd` where a
line is indented less.
-/

namespace ProcUnits.Yaml

/-- How a scalar is written. -/
inductive Style where
  | plain
  | singleQuoted
  | doubleQuoted
  | literal
  | folded
  deriving DecidableEq, Repr

/-- A tag: a prefix that a handle stands for, and a suffix. -/
structure Tag where
  handle : String
  suffix : String
  deriving DecidableEq, Repr

/-- The kinds of tokens. -/
inductive Token where
  | versionDirective
  | tagDirective (handle start : String)
  | otherDirective
  | documentStart
  | documentEnd
  | streamEnd
  | blockSequenceStart
  | blockMappingStart
  | blockEnd
  | flowSequenceStart
  | flowSequenceEnd
  | flowMappingStart
  | flowMappingEnd
  | blockEntry
  | flowEntry
  | key
  | value
  | alias (name : String)
  | anchor (name : String)
  | tag (tag : Tag)
  | scalar (style : Style) (text : String)
  deriving DecidableEq, Repr

/-- Why a text is not YAML. -/
inductive Cause where
  /-- A tab stands where only spaces can. -/
  | tab
  /-- A line starts at a column that nothing allows. -/
  | indentation
  /-- A comment follows without a blank before it. -/
  | comment
  /-- A mapping key is not followed by a colon. -/
  | missingColon
  /-- A token stands where it has no meaning. -/
  | context
  /-- A character can start no token. -/
  | character (c : Char)
  /-- The text ends inside a quoted scalar, or a document marker stands in one. -/
  | unclosedQuote
  /-- An escape sequence is unknown or names no character. -/
  | escape
  /-- Something follows a token on its line that cannot. -/
  | trailing
  /-- The name of an anchor, alias, tag or directive is missing or malformed. -/
  | name
  /-- Flow collections are nested too deep. -/
  | depth
  /-- A node was expected. -/
  | node
  /-- The separator or the end of a collection was expected. -/
  | collection
  /-- The start of a document was expected. -/
  | document
  /-- An alias names no anchor before it. -/
  | unknownAnchor (name : String)
  /-- A tag has a handle that no directive declares. -/
  | unknownHandle (handle : String)
  /-- A mapping has the same key twice. -/
  | duplicateKey
  deriving DecidableEq, Repr

/-- The text of a cause. -/
def Cause.message : Cause → String
  | .tab => "a tab stands where only spaces can"
  | .indentation => "invalid indentation"
  | .comment => "comments must be separated from other tokens by whitespace"
  | .missingColon => "a mapping key must be followed by ':'"
  | .context => "this is not allowed in this context"
  | .character c => s!"unexpected character {String.singleton c}"
  | .unclosedQuote => "a quoted scalar is not closed"
  | .escape => "invalid escape sequence"
  | .trailing => "invalid trailing content"
  | .name => "a name is missing or malformed"
  | .depth => "recursion limit exceeded"
  | .node => "did not find expected node content"
  | .collection => "did not find expected end of collection"
  | .document => "did not find expected document start"
  | .unknownAnchor n => s!"found unknown anchor {n}"
  | .unknownHandle h => s!"the handle {h} was not declared"
  | .duplicateKey => "duplicated key in mapping"

end ProcUnits.Yaml
