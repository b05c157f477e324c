import DeribitTrading.Library.ByteString

/-!
How a call can end other than with a value. Exceptions are kept apart from the
failures that no handler sees, because some callers catch one kind only.
-/
namespace DeribitTrading

/-- The exceptions first, then the ends that a handler never sees: an assertion of
rapidjson, undefined behaviour, and `std::terminate`. -/
inductive Fault where
  -- `substr` past the end
  | outOfRange
  -- the zlib wrappers
  | runtimeError
  -- nlohmann::json
  | parseError
  | typeError
  -- `m_server.send` on a connection that is not open
  | badConnection
  | assertion
  | undefined
  | terminated
  deriving DecidableEq, Repr

def Fault.fatal : Fault → Bool
  | .assertion | .undefined | .terminated => true
  | .outOfRange | .runtimeError | .parseError | .typeError | .badConnection => false

/-- What is left of a fault that no handler of its thread takes. -/
def Fault.uncaught (f : Fault) : Fault := if f.fatal then f else .terminated

abbrev Outcome := Except Fault

/-- The call comes back with a value. -/
def Finishes {α : Type} (r : Outcome α) : Prop := ∃ a, r = .ok a

@[simp] theorem finishes_ok {α : Type} (a : α) : Finishes (.ok a : Outcome α) := ⟨a, rfl⟩

@[simp] theorem not_finishes_error {α : Type} (f : Fault) :
    ¬ Finishes (.error f : Outcome α) := by
  rintro ⟨a, same⟩
  cases same

theorem finishes_bind_iff {α β : Type} (r : Outcome α) (k : α → Outcome β) :
    Finishes (r >>= k) ↔ ∃ a, r = .ok a ∧ Finishes (k a) := by
  cases r with
  | error f => simp [bind, Except.bind]
  | ok a => simp [bind, Except.bind]

theorem finishes_map_iff {α β : Type} (f : α → β) (r : Outcome α) :
    Finishes (f <$> r) ↔ Finishes r := by
  cases r with
  | error fault => simp [Functor.map, Except.map]
  | ok a => simp [Functor.map, Except.map]

theorem bind_eq_ok_iff {α β : Type} {r : Outcome α} {k : α → Outcome β} {b : β} :
    (r >>= k) = .ok b ↔ ∃ a, r = .ok a ∧ k a = .ok b := by
  cases r with
  | error f => simp [bind, Except.bind]
  | ok a => simp [bind, Except.bind]

@[simp] theorem finishes_pure {α : Type} (a : α) : Finishes (pure a : Outcome α) := ⟨a, rfl⟩

@[simp] theorem ok_bind {α β : Type} (a : α) (k : α → Outcome β) :
    ((.ok a : Outcome α) >>= k) = k a := rfl

@[simp] theorem error_bind {α β : Type} (f : Fault) (k : α → Outcome β) :
    ((.error f : Outcome α) >>= k) = .error f := rfl

end DeribitTrading
