/-!
# Faults of a document

A document is refused for one of two reasons.  A reader walks through it from left
to right and reports the first fault it meets.
-/

namespace CodeSurvey

/-- Why a document cannot be read as what was asked for. -/
inductive Fault where
  /-- The document breaks the grammar of its format. -/
  | malformed
  /-- The document is well formed and of another shape. -/
  | mismatch
deriving DecidableEq, Repr

end CodeSurvey
