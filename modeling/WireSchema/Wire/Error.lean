/-!
# Faults on the wire

The ways in which measuring, writing and reading an encoding can fail.  A fault holds its cause;
`CodecError.message` words it.  Writing and packing may also panic, which is no fault: nothing is
told, and the caller does not go on.
-/

namespace WireSchema

inductive CodecError where
  /-- More bytes were to be written than the buffer has room for. -/
  | writeOverflow (offset need : Nat)
  /-- More bytes were to be read than are left. -/
  | unexpectedEnd (offset need : Nat)
  | invalidUtf8 (offset : Nat)
  | unknownCommand (command : UInt32)
  | notAPayload (typeName : String)
  | lengthMismatch (estimated written : Nat)
  | missingField (typeName field : String)
  | typeMismatch (typeName field expected : String)
  | ordinalOutOfRange (enumName : String) (ordinal : UInt8)
  | depthExceeded (offset limit : Nat)
  | invalidInstant (millis : Int)
  deriving DecidableEq, Repr

/-- How writing or packing ends without success. -/
inductive Failure where
  | fault (cause : CodecError)
  | panic
  deriving DecidableEq, Repr

/-- A result whose fault, if it is one, is the failure. -/
def Failure.told {α : Type} (result : Except CodecError α) : Except Failure α :=
  result.mapError .fault

def CodecError.message : CodecError → String
  | .writeOverflow offset need =>
    "write of " ++ toString need ++ " bytes at offset " ++ toString offset ++
      " overflows the buffer"
  | .unexpectedEnd offset need =>
    "read of " ++ toString need ++ " bytes at offset " ++ toString offset ++
      " runs past the end of the buffer"
  | .invalidUtf8 offset => "invalid UTF-8 string at offset " ++ toString offset
  | .unknownCommand command => "unknown command id " ++ toString command
  | .notAPayload typeName => typeName ++ " is not a message, request or response payload"
  | .lengthMismatch estimated written =>
    "estimated " ++ toString estimated ++ " bytes but wrote " ++ toString written
  | .missingField typeName field => "missing required field " ++ typeName ++ "." ++ field
  | .typeMismatch typeName field expected =>
    typeName ++ "." ++ field ++ " holds a value that is not " ++ expected
  | .ordinalOutOfRange enumName ordinal =>
    "ordinal " ++ toString ordinal ++ " is out of range for enum " ++ enumName
  | .depthExceeded offset limit =>
    "object nesting at offset " ++ toString offset ++ " exceeds the depth limit of " ++
      toString limit
  | .invalidInstant millis => "datetime " ++ toString millis ++ " ms is out of range"

end WireSchema
