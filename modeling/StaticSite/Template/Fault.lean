import StaticSite.Json.Reader

/-!
# Template faults

A template fails for one of three kinds of reason: its text or its code is malformed, a name has no
value, or an operation meets a value of the wrong type. Each cause has its wording in one place.
-/

namespace StaticSite.Template

/-- What is wrong with the form of a template. -/
inductive Malformed where
  | unclosedDirective (line : Nat)
  | unclosedComment
  | unclosedString
  | unclosedTemplate
  | unclosedSubstitution
  | invalidNumber (literal : String)
  | invalidUnicode (digits : String)
  | strayCharacter (c : Char)
  | strayBrace
  | unclosedBlock
  | missingStatement
  | extraInOutput (found code : String)
  | extraInSubstitution (found : String)
  | expectedMark (mark found : String)
  | expectedName (found : String)
  | expectedKey (found : String)
  | expectedExpression (found : String)
  | targetOfAssignment
  | targetOfUpdate
  | arrowWithBlock
  | arrowOutsideCall
  | strayLoopControl
  | invalidJson (error : Json.ReadError)

/-- What is wrong with the source of a template, in words. -/
def Malformed.message : Malformed → String
  | .unclosedDirective line => s!"unclosed directive starting on line {line}"
  | .unclosedComment => "unterminated comment"
  | .unclosedString => "unterminated string literal"
  | .unclosedTemplate => "unterminated template string"
  | .unclosedSubstitution => "unterminated template substitution"
  | .invalidNumber literal => s!"invalid number `{literal}`"
  | .invalidUnicode digits => s!"invalid unicode escape `{digits}`"
  | .strayCharacter c => s!"unexpected character `{c}`"
  | .strayBrace => "unexpected `\x7d` without matching `\x7b`"
  | .unclosedBlock => "unclosed `\x7b` block"
  | .missingStatement => "unexpected end of template"
  | .extraInOutput found code => s!"unexpected {found} in output directive `{code}`"
  | .extraInSubstitution found => s!"unexpected {found} in template substitution"
  | .expectedMark mark found => s!"expected `{mark}`, found {found}"
  | .expectedName found => s!"expected identifier, found {found}"
  | .expectedKey found => s!"expected object key, found {found}"
  | .expectedExpression found => s!"expected expression, found {found}"
  | .targetOfAssignment => "only plain variables can be assigned to"
  | .targetOfUpdate => "increment and decrement need a plain variable"
  | .arrowWithBlock => "arrow functions must have an expression body"
  | .arrowOutsideCall => "arrow functions are only supported as call arguments"
  | .strayLoopControl => "`break` or `continue` outside of a loop"
  | .invalidJson error => s!"JSON.parse: {error.message}"

/-- What an operation finds wrong with the type of a value. -/
inductive Mismatch where
  | unreadable (typeName property : String)
  | notMethod (owner name : String)
  | notFunction (name : String)
  | notCallable
  | notIterable (typeName : String)
  | notConvertible
  | callbackExpected (method : String)

/-- What is wrong with a value, in words. -/
def Mismatch.message : Mismatch → String
  | .unreadable typeName property => s!"cannot read properties of {typeName} (reading '{property}')"
  | .notMethod owner name => s!"{owner}.{name} is not a function"
  | .notFunction name => s!"{name} is not a function"
  | .notCallable => "expression is not a function"
  | .notIterable typeName => s!"{typeName} is not iterable"
  | .notConvertible => "cannot convert undefined or null to object"
  | .callbackExpected method => s!"{method} expects an arrow function argument"

/-- Why a template has no output. `exhausted` says that a loop ran past the given bound. -/
inductive Fault where
  | malformed (cause : Malformed)
  | undefinedName (name : String)
  | mismatch (cause : Mismatch)
  | exhausted

/-- What stopped a template, in words. -/
def Fault.message : Fault → String
  | .malformed cause => s!"syntax error: {cause.message}"
  | .undefinedName name => s!"reference error: {name} is not defined"
  | .mismatch cause => s!"type error: {cause.message}"
  | .exhausted => "loop bound exceeded"

end StaticSite.Template
