/-!
# Decoding failures

Why a byte stream is not the encoding of the expected value, and the text
that reports it.
-/

set_option autoImplicit false

namespace ShardSync.Wire

/-- Why a value could not be read from a stream. -/
inductive DecodeError where
  | unexpectedEnd (needed remaining : Nat)
  | varintTooLong (limit : Nat)
  | negativeLength (value : Int)
  | countTooLarge (what : String) (declared limit : Nat)
  | invalidUtf8 (detail : String)
  | unknownTag (what : String) (tag : UInt8)
  | invalidData (detail : String)
  | trailingBytes (count : Nat)
deriving Repr, DecidableEq

def DecodeError.message : DecodeError → String
  | .unexpectedEnd needed remaining =>
      s!"unexpected end of stream: needed {needed} bytes, {remaining} remaining"
  | .varintTooLong limit => s!"variable-length integer is longer than {limit} bytes"
  | .negativeLength value => s!"negative value {value} where a length or count was expected"
  | .countTooLarge what declared limit =>
      s!"declared {what} count {declared} exceeds limit {limit}"
  | .invalidUtf8 detail => s!"invalid UTF-8 in string: {detail}"
  | .unknownTag what tag => s!"unknown {what} tag {tag}"
  | .invalidData detail => s!"invalid data: {detail}"
  | .trailingBytes count => s!"{count} trailing bytes after message body"

end ShardSync.Wire
