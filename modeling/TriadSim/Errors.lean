import TriadSim.Go.Value

/-!
# Errors

The simulator builds its errors with `fmt.Errorf` and tells them apart with
`errors.Is`.  An error is modelled by the sentinels it wraps and by its message,
kept as the pieces the format string puts together: a piece that a formatting
verb renders keeps its operand.
-/

namespace TriadSim

open Go

/-- The error types of the data-tree errors. -/
inductive ErrorType where
  | rpc
  | protocol
  | application
  deriving DecidableEq, Repr

/-- The error tags of the data-tree errors. -/
inductive ErrorTag where
  | malformedMessage
  | tooBig
  | missingAttribute
  | missingElement
  | unknownElement
  | invalidValue
  | accessDenied
  | dataExists
  | dataMissing
  | operationNotSupported
  | operationFailed
  deriving DecidableEq, Repr

/-- The text of a tag. -/
def ErrorTag.text : ErrorTag → GoString
  | malformedMessage => "malformed-message"
  | tooBig => "too-big"
  | missingAttribute => "missing-attribute"
  | missingElement => "missing-element"
  | unknownElement => "unknown-element"
  | invalidValue => "invalid-value"
  | accessDenied => "access-denied"
  | dataExists => "data-exists"
  | dataMissing => "data-missing"
  | operationNotSupported => "operation-not-supported"
  | operationFailed => "operation-failed"

/-- `datatree.Error` without its message, which the error value around it holds. -/
structure EditError where
  type : ErrorType
  tag : ErrorTag
  path : GoString
  validation : Bool
  deriving DecidableEq, Repr

/-- What `errors.Is` and `errors.As` can find in an error: the sentinel errors of the
packages under test, of package `context` and of the libraries an operation calls,
and the data-tree errors. -/
inductive Sentinel where
  | storeNotFound
  | storeUnknownDatastore
  | storeInvalidPath
  | storeInvalidValue
  | storeValidation
  | routerInvalidPath
  | routerNotFound
  | routerReadOnly
  | routerTypeMismatch
  | routerBadValue
  | routerUnknownOID
  | contextCanceled
  | contextDeadlineExceeded
  /-- A data-tree error. -/
  | edit (error : EditError)
  /-- An error of the operating system or of a codec, by its text. -/
  | external (message : GoString)
  deriving DecidableEq, Repr

/-- The text of a sentinel. -/
def Sentinel.message : Sentinel → GoString
  | storeNotFound => "store: path not found"
  | storeUnknownDatastore => "store: unknown datastore"
  | storeInvalidPath => "store: invalid path"
  | storeInvalidValue => "store: unsupported value type"
  | storeValidation => "store: candidate validation failed"
  | routerInvalidPath => "router: invalid path"
  | routerNotFound => "router: node not found"
  | routerReadOnly => "router: node is read-only"
  | routerTypeMismatch => "router: value type mismatch"
  | routerBadValue => "router: value out of domain"
  | routerUnknownOID => "router: unknown OID"
  | contextCanceled => "context canceled"
  | contextDeadlineExceeded => "context deadline exceeded"
  | edit error => error.tag.text
  | external message => message

/-- A part of a message: literal text, or the operand of a formatting verb. -/
inductive Piece where
  | literal (s : GoString)
  /-- `%q` of a string. -/
  | quoted (s : GoString)
  /-- `%q` of a byte. -/
  | quotedByte (byte : UInt8)
  /-- `%d` of an integer. -/
  | decimal (n : Int)
  /-- `%.1f` of a float. -/
  | tenths (x : Float64)
  /-- `%v` of a value. -/
  | shown (value : GoValue)
  /-- `%T` of a value. -/
  | typeName (value : GoValue)
  deriving DecidableEq, Repr

/-- An error value: what `errors.Is` finds in it, and its message. -/
structure Err where
  wraps : List Sentinel
  message : List Piece
  deriving DecidableEq, Repr

namespace Err

/-- A sentinel used as an error. -/
def sentinel (s : Sentinel) : Err :=
  ⟨[s], [.literal s.message]⟩

/-- Literal text of a format string. -/
def text (s : GoString) : Err :=
  ⟨[], [.literal s]⟩

/-- The operand of a verb other than `%w`. -/
def piece (p : Piece) : Err :=
  ⟨[], [p]⟩

/-- `fmt.Errorf`: the parts of the message in order, where a part that comes from
`%w` also passes on what it wraps. -/
instance : Append Err :=
  ⟨fun first second => ⟨first.wraps ++ second.wraps, first.message ++ second.message⟩⟩

/-- A wrapped error rendered with `%v`: its message without its identity. -/
def asText (err : Err) : Err :=
  ⟨[], err.message⟩

/-- `errors.Is(err, target)`. -/
def is (err : Err) (target : Sentinel) : Bool :=
  err.wraps.contains target

/-- `AsError`: the data-tree error inside an error. -/
def asEdit? (err : Err) : Option EditError :=
  err.wraps.findSome? fun
    | .edit error => some error
    | _ => none

/-- The tag of a data-tree error. -/
def tag? (err : Err) : Option ErrorTag :=
  err.asEdit?.map EditError.tag

end Err

/-- `err == nil` of a Go result. -/
def succeeded {α : Type} (result : Except Err α) : Bool :=
  result.isOk

end TriadSim
