/-!
# Log entries

What the program reports about its work, beside what it answers. A computation
that reports gives its result together with the entries, in the order in which
they were made, so that what is reported can be stated and proved like any
other result.

## Main definitions

* `Level`: How serious an entry is.
* `Entry`: A level and a message.
* `Logged`: A result with its entries.
-/

namespace SourceMarkers

/-- How serious an entry is, the most serious first. -/
inductive Level where
  | error
  | warn
  | info
  | debug
deriving DecidableEq, Repr

namespace Level

/-- The name of a level as it is written. -/
def label : Level → String
  | .error => "ERROR"
  | .warn => "WARN"
  | .info => "INFO"
  | .debug => "DEBUG"

/-- The place of a level, the most serious first. -/
def rank : Level → Nat
  | .error => 1
  | .warn => 2
  | .info => 3
  | .debug => 4

end Level

/-- One line of the report. -/
structure Entry where
  level : Level
  message : String
deriving DecidableEq, Repr

/-- A result together with the entries made on the way, first entry first. -/
structure Logged (α : Type) where
  value : α
  log : List Entry
deriving Repr

namespace Logged

instance : Monad Logged where
  pure a := ⟨a, []⟩
  bind x f := ⟨(f x.value).value, x.log ++ (f x.value).log⟩

/-- Makes one entry. -/
def tell (level : Level) (message : String) : Logged Unit := ⟨(), [⟨level, message⟩]⟩

@[simp] theorem value_pure {α : Type} (a : α) : (pure a : Logged α).value = a := rfl

@[simp] theorem log_pure {α : Type} (a : α) : (pure a : Logged α).log = [] := rfl

@[simp] theorem value_bind {α β : Type} (x : Logged α) (f : α → Logged β) :
    (x >>= f).value = (f x.value).value := rfl

@[simp] theorem log_bind {α β : Type} (x : Logged α) (f : α → Logged β) :
    (x >>= f).log = x.log ++ (f x.value).log := rfl

end Logged

end SourceMarkers
