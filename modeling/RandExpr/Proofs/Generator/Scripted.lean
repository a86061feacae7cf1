import RandExpr.Proofs.Nesting

/-!
# Scripted sources

Sources that play a script, in surroundings that keep their notes and nothing else. Statements
about every source are applied to them.
-/

namespace RandExpr

/-- Surroundings that keep notes, the latest first. -/
structure Diary where
  /-- The notes kept. -/
  notes : List Note

instance : Host Diary where
  note := fun n w => ⟨n :: w.notes⟩
  entropy := fun w => (.ofSeed 0, w)

/-- A delivery that is pending for a number of polls, and then settles. -/
def Delivery.after {W : Type} (polls : Nat) (result : Except Fault Value) : Delivery W :=
  .wait 0 fun n w => (if n < polls then none else some result, w)

/-- The source whose draws give what the script says, by the number of the draw, from one number
on. -/
def Source.scripted {W : Type} (script : Nat → Except Fault (Delivery W)) (n : Nat) :
    Source W where
  State := Nat
  state := n
  pull := fun n w => (script n, n + 1, w)

/-- The generator over a scripted source, as it is when it has just been built. -/
def Generator.scripted {W : Type} (kind : String) (script : Nat → Except Fault (Delivery W)) :
    Generator W where
  kind := kind
  args := []
  isLate := ((script 0).toOption.map (·.isLate)).getD false
  first := (script 0).toOption
  source := .scripted script 1

/-- The recipe that plays the script, whatever its setting and arguments. -/
def Recipe.scripted {W : Type} (script : Nat → Except Fault (Delivery W)) : Recipe W :=
  fun _ _ => .yield (.scripted script 0)

/-- Repetitions, and coins that play the script. -/
def Catalog.scripted {W : Type} [Host W] (script : Nat → Except Fault (Delivery W)) : Catalog W :=
  (Catalog.empty.insert "coin" (Recipe.scripted script)).insert "repeat" Recipe.repeated

namespace Catalog

variable {W : Type} [Host W] (script : Nat → Except Fault (Delivery W))

theorem find?_scripted_repeat :
    (scripted script).find? "repeat" = some Recipe.repeated := by
  simp [scripted, find?, insert, Keyed.find?_insert]

theorem find?_scripted_coin :
    (scripted script).find? "coin" = some (Recipe.scripted script) := by
  simp [scripted, find?, insert, Keyed.find?_insert]

theorem prepare_scripted (options : Options)
    (build : String → W → Except Fault (Generator W) × W) (depth : Nat) (w : W) :
    (scripted script).prepare options build depth "coin" w =
      (.ok (⟨"coin", "coin", [], ⟨0, 4⟩⟩, .scripted script 0), noteShorthand "coin" w) := by
  have hparse : Expr.parse "coin" = .ok ⟨"coin", "coin", [], ⟨0, 4⟩⟩ := by rfl
  rw [prepare_of_parse hparse (find?_scripted_coin script)]
  rfl

theorem nested_scripted {counts : List Nat} (hcounts : ∀ count ∈ counts, count ≤ maxRepeat) :
    (scripted script).Nested "coin" counts (repetitionText counts "coin") := by
  have hleaf : Scan.Closed "coin".toList := ⟨4, rfl⟩
  exact nested_repetitionText (find?_scripted_repeat script) hcounts hleaf

end Catalog

end RandExpr
