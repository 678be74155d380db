import Mathlib.Init

/-!
# The ways a request or the start can end other than by returning

The exceptions of the program and of the libraries it calls, and the points at which it is not known
what happens: where the language leaves the behaviour open, and where a macro of the shared library
takes over, which is not part of the repository. Those points are listed with the exceptions so that
a result can say that one was reached; nothing catches them.
-/

namespace Sphinx

inductive Error where
  /-- `std::runtime_error`, with the server's message. -/
  | runtimeError (what : String)
  /-- Thrown by `std::stoi` on a text without digits. -/
  | invalidArgument
  /-- Thrown by `std::stoi` on a number that does not fit. -/
  | outOfRange
  | badOptionalAccess
  /-- A `SPHINX_ASSERT` that does not hold. What the macro does then is left open. -/
  | assertion (what : String)
  /-- Thrown by the JSON parser. -/
  | parseError
  /-- Thrown by the JSON library on a value of the wrong type. -/
  | typeError
  /-- The const `operator[]` of a JSON object was applied to a key that is not there. -/
  | missingKey
  /-- An array was read out of its bounds. -/
  | outOfBounds
  /-- A floating-point number was converted to an integer type that does not have its integer
  part. -/
  | unrepresentable
  /-- `std::invalid_argument`, thrown for a configuration the program does not support. -/
  | unsupported (what : String)
  deriving DecidableEq, Repr

/-- What `nlohmann::json` documents as thrown: the exceptions a caller can catch. -/
def Error.IsJsonException (e : Error) : Prop := e = .parseError ∨ e = .typeError

/-- No exception: it is not known what happens. -/
def Error.IsUndefined : Error → Prop
  | .missingKey | .outOfBounds | .unrepresentable | .assertion _ => True
  | _ => False

end Sphinx
