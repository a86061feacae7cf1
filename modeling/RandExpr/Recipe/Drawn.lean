import RandExpr.Catalog
import RandExpr.Random.Draw
import RandExpr.Recipe.Range

/-!
# Recipes that draw

The kinds `number` and `char`, whose values are drawn evenly from a range.

## The model

The argument of either kind is its range. Every generator draws from a supply of random words of
its own: the stream of the seed, if the options set one, so that all generators under one seed draw
from equal streams; else a fresh stream of the host.
-/

namespace RandExpr.Recipe

open RandExpr.Random (Words)

variable {W : Type} [Host W]

/-- Goes on with a supply of random words of its own. -/
def withWords (options : Options) (rest : Words → Plan W) : Plan W :=
  match options.seed? with
  | some seed => rest { stream := .ofSeed seed }
  | none => .act Host.entropy fun stream => rest { stream }

/-- A source whose values are there at once and depend on nothing but the words drawn. -/
def drawing {α : Type} (draw : Words → α × Words) (value : α → Value) (words : Words) :
    Source W where
  State := Words
  state := words
  pull := fun words w =>
    let (a, words) := draw words
    (.ok (.now (value a)), words, w)

/-- A source whose draws all break off. -/
def breaking : Source W where
  State := Unit
  state := ()
  pull := fun s w => (.error .brokenOff, s, w)

/-- The source of the numbers of a range. -/
def numbers (words : Words) : NumberRange → Source W
  | .integers low high => drawing (Random.Integer.draw low high) .integer words
  | .decimals low high places =>
    match Random.Real.scale? low high with
    | some scale => drawing (Random.Real.draw low high scale places) .number words
    | none => breaking

/-- The source of the characters of a range. -/
def characters (words : Words) (range : CharRange) : Source W :=
  drawing (Random.Character.draw range.low range.high) (fun c => .text (String.singleton c)) words

/-- Numbers drawn from a range. -/
def number : Recipe W := fun setting args =>
  Plan.ofExcept (setting.arg args 0 "range") fun text =>
    match NumberRange.read text with
    | .error reason => .fail (.refused setting.kind reason)
    | .ok range => withWords setting.options fun words => .yield (numbers words range)

/-- Characters drawn from a range. -/
def character : Recipe W := fun setting args =>
  Plan.ofExcept (setting.arg args 0 "range") fun text =>
    match CharRange.read text with
    | .error reason => .fail (.refused setting.kind reason)
    | .ok range => withWords setting.options fun words => .yield (characters words range)

end RandExpr.Recipe
