set_option autoImplicit false

/-! # Environment variables

The environment of a process maps names to values. A value holds no NUL character:
`Environment.set?` refuses one that does, `Environment.set` leaves that to its caller. -/

namespace PdfWorker

/-- The variables that are set, each once. -/
structure Environment where
  bindings : List (String × String) := []
deriving DecidableEq, Repr

namespace Environment

/-- The value of a variable, if it is set. -/
def get? (env : Environment) (name : String) : Option String :=
  env.bindings.lookup name

/-- Sets a variable. -/
def set (env : Environment) (name value : String) : Environment :=
  ⟨(name, value) :: env.bindings.filter (·.1 ≠ name)⟩

/-- Sets a variable to a value that may hold anything; none if it holds a NUL character. -/
def set? (env : Environment) (name value : String) : Option Environment :=
  if value.contains '\x00' then none else some (env.set name value)

@[simp] theorem get?_set_self (env : Environment) (name value : String) :
    (env.set name value).get? name = some value := by
  simp [get?, set]

end Environment

end PdfWorker
