import AgentConfig.Text.Base64
import AgentConfig.Text.Quoted

namespace AgentConfig.Yaml

/-- What was being read when the characters of a text stopped making sense. -/
inductive LexicalFault where
  | simpleKey
  | token
  | directive
  | directiveAddress
  | aliasName
  | anchor
  | tag
  | tagAddress
  | blockScalar
  | quotedScalar
  | doubleQuotedScalar
  | sequenceEntry
  | mappingKey
  | mappingValue
  deriving DecidableEq

/-- What was being read when the tokens of a text stopped making sense. -/
inductive GrammarFault where
  | documentStart (found : String)
  | duplicateVersion
  | incompatibleVersion
  | duplicateHandle (handle : String)
  | undefinedHandle
  | blockNode
  | flowNode
  | blockSequence
  | blockMapping
  | flowSequence
  | flowMapping
  deriving DecidableEq

/-- How the nodes of a text fail to make up one document. -/
inductive GraphFault where
  | undefinedAlias (name : String)
  | duplicateAnchor (name : String)
  | severalDocuments
  deriving DecidableEq

inductive NodeKind where
  | scalar
  | sequence
  | mapping
  deriving DecidableEq

/-- Why a node has no value. -/
inductive ValueFault where
  | unknownTag (name : String)
  | wrongKind (wanted found : NodeKind)
  | mapping
  | orderedMap
  | pairs
  | bytesNotAscii (reason : String)
  | bytesNotBase64 (error : Text.Base64Error)
  deriving DecidableEq

/-- How the text of a scalar fails to be a number, a truth value, a moment or a character. -/
inductive ScalarFault where
  | int (base : Nat) (text : String)
  | float (text : String)
  | tooManyDigits (count : Nat)
  | empty
  | bool (word : String)
  | moment
  | momentFromMapping
  | year (year : Nat)
  | month
  | day
  | hour
  | minute
  | second
  | zone (days seconds : Int)
  | floatBase
  | codePoint
  | codePointSize
  deriving DecidableEq

inductive Error where
  | character (code : Nat)
  | lexical (fault : LexicalFault)
  | grammar (fault : GrammarFault)
  | graph (fault : GraphFault)
  | value (fault : ValueFault)
  | scalar (fault : ScalarFault)
  deriving DecidableEq

def LexicalFault.message : LexicalFault → String
  | simpleKey => "while scanning a simple key"
  | token => "while scanning for the next token"
  | directive => "while scanning a directive"
  | directiveAddress => "while parsing a directive"
  | aliasName => "while scanning an alias"
  | anchor => "while scanning an anchor"
  | tag => "while scanning a tag"
  | tagAddress => "while parsing a tag"
  | blockScalar => "while scanning a block scalar"
  | quotedScalar => "while scanning a quoted scalar"
  | doubleQuotedScalar => "while scanning a double-quoted scalar"
  | sequenceEntry => "sequence entries are not allowed here"
  | mappingKey => "mapping keys are not allowed here"
  | mappingValue => "mapping values are not allowed here"

def GrammarFault.message : GrammarFault → String
  | documentStart found => s!"expected '<document start>', but found {Text.quoted found}"
  | duplicateVersion => "found duplicate YAML directive"
  | incompatibleVersion => "found incompatible YAML document (version 1.* is required)"
  | duplicateHandle handle => s!"duplicate tag handle {Text.quoted handle}"
  | undefinedHandle => "while parsing a node"
  | blockNode => "while parsing a block node"
  | flowNode => "while parsing a flow node"
  | blockSequence => "while parsing a block collection"
  | blockMapping => "while parsing a block mapping"
  | flowSequence => "while parsing a flow sequence"
  | flowMapping => "while parsing a flow mapping"

def GraphFault.message : GraphFault → String
  | undefinedAlias name => s!"found undefined alias {Text.quoted name}"
  | duplicateAnchor name => s!"found duplicate anchor {Text.quoted name}; first occurrence"
  | severalDocuments => "expected a single document in the stream"

def NodeKind.word : NodeKind → String
  | scalar => "scalar"
  | sequence => "sequence"
  | mapping => "mapping"

def ValueFault.message : ValueFault → String
  | unknownTag name => s!"could not determine a constructor for the tag {Text.quoted name}"
  | wrongKind wanted found => s!"expected a {wanted.word} node, but found {found.word}"
  | mapping => "while constructing a mapping"
  | orderedMap => "while constructing an ordered map"
  | pairs => "while constructing pairs"
  | bytesNotAscii reason => "failed to convert base64 data into ascii: " ++ reason
  | bytesNotBase64 error => "failed to decode base64 data: " ++ error.message

/-- A length of time as it is written out: whole days and the seconds that remain. -/
def spanText (days seconds : Int) : String :=
  let parts := (if days = 0 then [] else [s!"days={days}"]) ++ (if seconds = 0 then [] else [s!"seconds={seconds}"])
  "datetime.timedelta(" ++ ", ".intercalate parts ++ ")"

/-- At most so many characters of a text that is no integer are quoted. -/
def quoteLimit : Nat := 200

def ScalarFault.message : ScalarFault → String
  | int base text =>
    s!"invalid literal for int() with base {base}: " ++ String.ofList ((Text.quoted text).toList.take quoteLimit)
  | float text => s!"could not convert string to float: {Text.quoted text}"
  | tooManyDigits count =>
    s!"Exceeds the limit (4300 digits) for integer string conversion: value has {count} digits; " ++
      "use sys.set_int_max_str_digits() to increase the limit"
  | empty => "string index out of range"
  | bool word => Text.quoted word
  | moment => "'NoneType' object has no attribute 'groupdict'"
  | momentFromMapping => "expected string or bytes-like object, got 'list'"
  | year n => s!"year {n} is out of range"
  | month => "month must be in 1..12"
  | day => "day is out of range for month"
  | hour => "hour must be in 0..23"
  | minute => "minute must be in 0..59"
  | second => "second must be in 0..59"
  | zone days seconds =>
    "offset must be a timedelta strictly between -timedelta(hours=24) and timedelta(hours=24), not " ++
      spanText days seconds ++ "."
  | floatBase => "int too large to convert to float"
  | codePoint => "chr() arg not in range(0x110000)"
  | codePointSize => "Python int too large to convert to C int"

def Error.message : Error → String
  | character code =>
    let digits := (Nat.toDigits 16 code).length
    "unacceptable character #x" ++ String.ofList (Text.hexDigits (max 4 digits) code) ++
      ": special characters are not allowed"
  | lexical fault => fault.message
  | grammar fault => fault.message
  | graph fault => fault.message
  | value fault => fault.message
  | scalar fault => fault.message

end AgentConfig.Yaml
