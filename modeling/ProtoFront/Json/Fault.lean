/-!
# What can be wrong with JSON
-/

namespace ProtoFront

/-- What is wrong with a text that should be JSON of some shape. -/
inductive JsonFault where
  /-- the text ends too early -/
  | endsEarly
  /-- the text is not JSON, or something follows it -/
  | malformed
  /-- the text is JSON up to here, but not of the shape that is asked for -/
  | wrongShape
  deriving DecidableEq, Repr, Inhabited

/-- What is read does not change where reading stops. -/
theorem JsonFault.eq_ok_of_map_eq_ok {α β : Type} {result : Except JsonFault (α × List Char)}
    {convert : α → β} {value : β} {rest : List Char}
    (done : result.map (Prod.map convert id) = .ok (value, rest)) :
    ∃ found, result = .ok (found, rest) := by
  cases result with
  | error => cases done
  | ok found => cases done; exact ⟨found.1, rfl⟩

end ProtoFront
