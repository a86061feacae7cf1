import RandExpr.Note
import RandExpr.Random.Keystream

/-!
# Hosts

What generators ask of their surroundings: to keep notes, and to supply randomness where no seed
fixes it. Everything else that a recipe or a source of values does to its surroundings is up to
them, so the surroundings are a type of the host's choice.
-/

namespace RandExpr

/-- Surroundings that keep notes and supply randomness. -/
class Host (W : Type) where
  /-- Keeps a note. -/
  note : Note → W → W
  /-- Supplies a fresh stream of random words. -/
  entropy : W → Random.Keystream × W

end RandExpr
