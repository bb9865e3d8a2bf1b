import CheckedIR.Source.Span

/-!
# Diagnostics

Why a program cannot be lowered. A diagnostic has a cause, the span it is about and, for
verification failures, the printed text in question. The cause fixes the stable code, the
category, the message and the named values that reports list.
-/

namespace CheckedIR

inductive Category
  | unsupported
  | binding
  | invariant
  | verification
  | config
  deriving DecidableEq, Repr

def Category.text : Category → String
  | .unsupported => "UNSUPPORTED"
  | .binding => "BINDING"
  | .invariant => "INVARIANT"
  | .verification => "VERIFICATION"
  | .config => "CONFIG"

def Category.all : List Category := [.unsupported, .binding, .invariant, .verification, .config]

inductive Code
  | unsupportedType
  | anyType
  | unsupportedSyntax
  | unsupportedOperator
  | assignment
  | invalidOperands
  | unknownIdentifier
  | duplicateBinding
  | unknownBinding
  | notNamespace
  | unhandledContext
  | invalidCallTarget
  | notClass
  | missingConstructor
  | unknownMember
  | unboundMethodAccess
  | capturedBinding
  | missingOwner
  | unknownBuiltin
  | valueTypeAllocation
  | internal
  | invalidModule
  | invalidFunction
  | invalidConfig
  | unsupportedTarget
  deriving DecidableEq, Repr

namespace Code

def text : Code → String
  | .unsupportedType => "UNSUPPORTED_TYPE"
  | .anyType => "ANY_TYPE"
  | .unsupportedSyntax => "UNSUPPORTED_SYNTAX"
  | .unsupportedOperator => "UNSUPPORTED_OPERATOR"
  | .assignment => "ASSIGNMENT"
  | .invalidOperands => "INVALID_OPERANDS"
  | .unknownIdentifier => "UNKNOWN_IDENTIFIER"
  | .duplicateBinding => "DUPLICATE_BINDING"
  | .unknownBinding => "UNKNOWN_BINDING"
  | .notNamespace => "NOT_A_NAMESPACE"
  | .unhandledContext => "UNHANDLED_DECLARATION_CONTEXT"
  | .invalidCallTarget => "INVALID_CALL_TARGET"
  | .notClass => "NOT_A_CLASS"
  | .missingConstructor => "MISSING_CONSTRUCTOR"
  | .unknownMember => "UNKNOWN_MEMBER"
  | .unboundMethodAccess => "UNBOUND_METHOD_ACCESS"
  | .capturedBinding => "CAPTURED_BINDING"
  | .missingOwner => "MISSING_OWNER_TYPE"
  | .unknownBuiltin => "UNKNOWN_BUILTIN"
  | .valueTypeAllocation => "VALUE_TYPE_ALLOCATION"
  | .internal => "INTERNAL"
  | .invalidModule => "INVALID_MODULE"
  | .invalidFunction => "INVALID_FUNCTION"
  | .invalidConfig => "INVALID_CONFIG"
  | .unsupportedTarget => "UNSUPPORTED_TARGET"

def category : Code → Category
  | .unsupportedType | .anyType | .unsupportedSyntax | .unsupportedOperator | .assignment
  | .invalidOperands => .unsupported
  | .unknownIdentifier | .duplicateBinding | .unknownBinding | .notNamespace | .unhandledContext
  | .invalidCallTarget | .notClass | .missingConstructor | .unknownMember | .unboundMethodAccess
  | .capturedBinding => .binding
  | .missingOwner | .unknownBuiltin | .valueTypeAllocation | .internal => .invariant
  | .invalidModule | .invalidFunction => .verification
  | .invalidConfig | .unsupportedTarget => .config

def all : List Code :=
  [.unsupportedType, .anyType, .unsupportedSyntax, .unsupportedOperator, .assignment,
    .invalidOperands, .unknownIdentifier, .duplicateBinding, .unknownBinding, .notNamespace,
    .unhandledContext, .invalidCallTarget, .notClass, .missingConstructor, .unknownMember,
    .unboundMethodAccess, .capturedBinding, .missingOwner, .unknownBuiltin, .valueTypeAllocation,
    .internal, .invalidModule, .invalidFunction, .invalidConfig, .unsupportedTarget]

end Code

inductive Cause
  | unsupportedType (type : String)
  | anyType
  | unsupportedSyntax (kind text : String)
  | unsupportedOperator (operator : String)
  | assignment
  | invalidOperands (operator left right : String)
  | unknownIdentifier (name : String)
  | duplicateBinding (name scope : String)
  | unknownBinding (name scope : String)
  | notNamespace (name : String)
  | unhandledContext (kind : String)
  | invalidCallTarget (callee : String)
  | notClass (type : String)
  | missingConstructor (class_ : String)
  | unknownMember (member owner : String)
  | unboundMethodAccess (method : String)
  | capturedBinding (name owner user : String)
  | missingOwner (declaration : String)
  | unknownBuiltin (name : String)
  | valueTypeAllocation (type : String)
  | internal (message : String)
  | invalidModule (reason : String)
  | invalidFunction (function reason : String)
  | invalidConfig (field reason : String)
  | unsupportedTarget (version constraint : String)
  /-- A diagnostic of another component, with its own category and code. -/
  | foreign (category code message : String)
  deriving DecidableEq, Repr

namespace Cause

def code? : Cause → Option Code
  | .unsupportedType _ => some .unsupportedType
  | .anyType => some .anyType
  | .unsupportedSyntax .. => some .unsupportedSyntax
  | .unsupportedOperator _ => some .unsupportedOperator
  | .assignment => some .assignment
  | .invalidOperands .. => some .invalidOperands
  | .unknownIdentifier _ => some .unknownIdentifier
  | .duplicateBinding .. => some .duplicateBinding
  | .unknownBinding .. => some .unknownBinding
  | .notNamespace _ => some .notNamespace
  | .unhandledContext _ => some .unhandledContext
  | .invalidCallTarget _ => some .invalidCallTarget
  | .notClass _ => some .notClass
  | .missingConstructor _ => some .missingConstructor
  | .unknownMember .. => some .unknownMember
  | .unboundMethodAccess _ => some .unboundMethodAccess
  | .capturedBinding .. => some .capturedBinding
  | .missingOwner _ => some .missingOwner
  | .unknownBuiltin _ => some .unknownBuiltin
  | .valueTypeAllocation _ => some .valueTypeAllocation
  | .internal _ => some .internal
  | .invalidModule _ => some .invalidModule
  | .invalidFunction .. => some .invalidFunction
  | .invalidConfig .. => some .invalidConfig
  | .unsupportedTarget .. => some .unsupportedTarget
  | .foreign .. => none

def codeText : Cause → String
  | .foreign _ code _ => code
  | c => (c.code?.map Code.text).getD ""

def categoryText : Cause → String
  | .foreign category _ _ => category
  | c => (c.code?.map (·.category.text)).getD ""

def message : Cause → String
  | .unsupportedType type => "unsupported type '" ++ type ++ "'"
  | .anyType => "'any' type is not supported"
  | .unsupportedSyntax kind text => "unsupported " ++ kind ++ ": " ++ text
  | .unsupportedOperator operator => "unsupported operator '" ++ operator ++ "'"
  | .assignment => "assignment is not yet supported"
  | .invalidOperands operator _ _ =>
    if operator = "+" then "invalid operand types to binary plus"
    else "invalid operand types to binary '" ++ operator ++ "'"
  | .unknownIdentifier name => "unknown identifier '" ++ name ++ "'"
  | .duplicateBinding name scope => "duplicate binding '" ++ name ++ "' in scope " ++ scope
  | .unknownBinding name scope => "unknown binding '" ++ name ++ "' in scope " ++ scope
  | .notNamespace name => "'" ++ name ++ "' is not a namespace"
  | .unhandledContext kind => "unhandled declaration context " ++ kind
  | .invalidCallTarget callee => "invalid call target '" ++ callee ++ "'"
  | .notClass type => "cannot 'new' non-class type '" ++ type ++ "'"
  | .missingConstructor class_ => "missing constructor for class '" ++ class_ ++ "'"
  | .unknownMember member owner => "unknown member '" ++ member ++ "' of '" ++ owner ++ "'"
  | .unboundMethodAccess method => "method '" ++ method ++ "' can only be called"
  | .capturedBinding name owner user =>
    "'" ++ name ++ "' is local to " ++ owner ++ " and cannot be used in " ++ user
  | .missingOwner _ => "mangling methods requires an owner type"
  | .unknownBuiltin name => "unknown builtin '" ++ name ++ "'"
  | .valueTypeAllocation type => "cannot heap-allocate value type '" ++ type ++ "'"
  | .internal message => message
  | .invalidModule reason => "invalid module: " ++ reason
  | .invalidFunction function reason => "invalid function '" ++ function ++ "': " ++ reason
  | .invalidConfig field reason => "invalid configuration " ++ field ++ ": " ++ reason
  | .unsupportedTarget version constraint =>
    "LLVM " ++ version ++ " does not satisfy " ++ constraint
  | .foreign _ _ message => message

def context : Cause → List (String × String)
  | .unsupportedType type => [("type", type)]
  | .unsupportedSyntax kind _ => [("kind", kind)]
  | .unsupportedOperator operator => [("operator", operator)]
  | .invalidOperands operator left right =>
    [("left", left), ("operator", operator), ("right", right)]
  | .unknownIdentifier name => [("name", name)]
  | .duplicateBinding name scope => [("name", name), ("scope", scope)]
  | .unknownBinding name scope => [("name", name), ("scope", scope)]
  | .notNamespace name => [("name", name)]
  | .unhandledContext kind => [("kind", kind)]
  | .invalidCallTarget callee => [("callee", callee)]
  | .notClass type => [("type", type)]
  | .missingConstructor class_ => [("class", class_)]
  | .unknownMember member owner => [("member", member), ("owner", owner)]
  | .unboundMethodAccess method => [("method", method)]
  | .capturedBinding name owner user => [("name", name), ("owner", owner), ("user", user)]
  | .missingOwner declaration => [("declaration", declaration)]
  | .unknownBuiltin name => [("name", name)]
  | .valueTypeAllocation type => [("type", type)]
  | .invalidFunction function _ => [("function", function)]
  | .invalidConfig field _ => [("field", field)]
  | .unsupportedTarget version constraint => [("constraint", constraint), ("version", version)]
  | .anyType | .assignment | .internal _ | .invalidModule _ | .foreign .. => []

end Cause

structure Diagnostic where
  cause : Cause
  span : Span
  detail : String
  origin : String
  deriving DecidableEq, Repr

namespace Diagnostic

def ofCause (c : Cause) : Diagnostic := ⟨c, Span.none, "", ""⟩

def atSpan (d : Diagnostic) (s : Span) : Diagnostic := { d with span := s }

def orAt (d : Diagnostic) (s : Span) : Diagnostic := if d.span.isValid then d else d.atSpan s

def text (d : Diagnostic) : String :=
  let body := "[" ++ d.cause.categoryText ++ ":" ++ d.cause.codeText ++ "] " ++ d.cause.message
  if d.span.isValid then d.span.start.text ++ ": " ++ body else body

/-- The long form: the one-line form, the named values, the origin and the detail. -/
def report (d : Diagnostic) : String :=
  let values := d.cause.context.map fun (k, v) => "\n  " ++ k ++ ": " ++ v
  let origin := if d.origin.isEmpty then "" else "\n  caller: " ++ d.origin
  let detail := if d.detail.isEmpty then "" else "\n" ++ d.detail
  d.text ++ String.join values ++ origin ++ detail

def hasCode (d : Diagnostic) (c : Code) : Bool := d.cause.codeText == c.text

def hasCategory (d : Diagnostic) (c : Category) : Bool := d.cause.categoryText == c.text

end Diagnostic

/-- Why a request was refused: a diagnostic or a plain reason, inside any number of labels that
say where it arose. -/
inductive Failure
  | plain (reason : String)
  | diagnosed (d : Diagnostic)
  | within (label : String) (inner : Failure)
  deriving Repr

namespace Failure

def text : Failure → String
  | .plain reason => reason
  | .diagnosed d => d.text
  | .within label inner => label ++ ": " ++ inner.text

def diagnostic? : Failure → Option Diagnostic
  | .plain _ => none
  | .diagnosed d => some d
  | .within _ inner => inner.diagnostic?

end Failure

inductive Fault
  | refused (f : Failure)
  /-- A step got something that it has no answer for. -/
  | crashed
  /-- The bound on nested requests was reached. -/
  | exhausted
  deriving Repr

namespace Fault

def plain (reason : String) : Fault := .refused (.plain reason)

def cause (c : Cause) : Fault := .refused (.diagnosed (.ofCause c))

def causeAt (c : Cause) (s : Span) : Fault :=
  .refused (.diagnosed ((Diagnostic.ofCause c).atSpan s))

def orAt (s : Span) : Fault → Fault
  | .refused (.diagnosed d) => .refused (.diagnosed (d.orAt s))
  | f => f

end Fault

end CheckedIR
