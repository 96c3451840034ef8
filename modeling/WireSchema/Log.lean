import WireSchema.Wire.Error

/-!
# The log

What the library does is recorded in a log.  A record has a level and a text.
-/

namespace WireSchema

inductive LogLevel where
  | trace
  | debug
  | warn
  | error
  deriving DecidableEq, Repr

def LogLevel.text : LogLevel → String
  | .trace => "TRACE"
  | .debug => "DEBUG"
  | .warn => "WARN"
  | .error => "ERROR"

/-- What a registry does with a message. -/
inductive Activity where
  | packing
  | unpacking
  deriving DecidableEq, Repr

def Activity.failure (activity : Activity) (fault : CodecError) : String :=
  let name :=
    match activity with
    | .packing => "Packing"
    | .unpacking => "Unpacking"
  name ++ " message failed: " ++ fault.message

/-- What is recorded. -/
inductive LogRecord where
  | outlined (space : String) (enums objects : Nat)
  | resolved (namespaces enums objects payloads tables : Nat)
  | packed (command : UInt32) (transaction : Option UInt32) (written : Nat)
  | unpacked (command : UInt32) (transaction : Option UInt32) (consumed size : Nat)
  | replaced (command : UInt32)
  | registered (total fresh : Nat)
  | failed (activity : Activity) (fault : CodecError)
  deriving DecidableEq, Repr

namespace LogRecord

def level : LogRecord → LogLevel
  | .packed .. | .unpacked .. => .trace
  | .outlined .. | .resolved .. | .registered .. => .debug
  | .replaced .. => .warn
  | .failed .. => .error

def transactionText : Option UInt32 → String
  | some id => "Some(" ++ toString id ++ ")"
  | none => "None"

def body : LogRecord → String
  | .outlined space enums objects =>
    "parsed " ++ space ++ ".json: " ++ toString enums ++ " enums, " ++ toString objects ++ " objects"
  | .resolved namespaces enums objects payloads tables =>
    "resolved " ++ toString namespaces ++ " namespaces: " ++ toString enums ++ " enums, " ++
      toString objects ++ " objects, " ++ toString payloads ++ " payloads, " ++ toString tables ++
      " dispatch tables"
  | .packed command transaction written =>
    "pack: command " ++ toString command ++ " txn " ++ transactionText transaction ++ " -> " ++
      toString written ++ " bytes"
  | .unpacked command transaction consumed size =>
    "unpack: command " ++ toString command ++ " txn " ++ transactionText transaction ++ " <- " ++
      toString consumed ++ " of " ++ toString size ++ " bytes"
  | .replaced command =>
    "register: factory for wire id " ++ toString command ++ " replaced"
  | .registered total fresh =>
    "register: " ++ toString total ++ " factories (" ++ toString fresh ++ " new)"
  | .failed activity fault => activity.failure fault

/-- The text of a record, after the name that marks all records of the library. -/
def text (record : LogRecord) : String := "[packme] " ++ record.body

end LogRecord
end WireSchema
