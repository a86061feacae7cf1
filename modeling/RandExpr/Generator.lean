import RandExpr.Delivery
import RandExpr.Host
import RandExpr.Text.Quoted

/-!
# Generators

Sources of values, and generators built over them.

## The model

A source (`Source`) is a state and a way to draw from it. A generator is a source from which one
value has been drawn when it was built: that first value is kept, classifies the generator as early
or late for good, and is handed out by the first call. Every later call draws from the source, and
notes when a value comes late against the classification. A generator is a source itself, so
generators nest.
-/

namespace RandExpr

/-- A state and a way to draw values from it. -/
structure Source (W : Type) : Type 1 where
  /-- What the source keeps from one draw to the next. -/
  State : Type
  /-- The state now. -/
  state : State
  /-- Draws a value. -/
  pull : State → W → Except Fault (Delivery W) × State × W
  /-- The deliveries that a state holds back, drawn but not handed out. -/
  held : State → List (Delivery W) := fun _ => []

/-- A source with its first value. -/
structure Generator (W : Type) : Type 1 where
  /-- The kind that the expression named. -/
  kind : String
  /-- The arguments that the expression gave. -/
  args : List String
  /-- The classification: whether the first value came late. -/
  isLate : Bool
  /-- The first value, until it is handed out. -/
  first : Option (Delivery W)
  /-- Where the further values come from. -/
  source : Source W

namespace Generator

variable {W : Type} [Host W]

/-- What a generator keeps from one call to the next. -/
abbrev State (g : Generator W) : Type := Option (Delivery W) × g.source.State

/-- Hands out the next value, from a state of the generator. -/
def pull (g : Generator W) : g.State → W → Except Fault (Delivery W) × g.State × W
  | (some d, state), w => (.ok d, (none, state), w)
  | (none, state), w =>
    match g.source.pull state w with
    | (.error f, state, w) => (.error f, (none, state), w)
    | (.ok d, state, w) =>
      let w := Host.note (.pulled g.kind) w
      let w := if d.isLate = g.isLate then w
        else Host.note (.shapeChanged g.kind d.isLate g.isLate) w
      (.ok d, (none, state), w)

/-- A generator as a source for others. -/
def toSource (g : Generator W) : Source W where
  State := g.State
  state := (g.first, g.source.state)
  pull := g.pull
  held := fun (first, state) => first.toList ++ g.source.held state

/-- A generator in another state. -/
def withState (g : Generator W) (s : g.State) : Generator W :=
  { g with first := s.1, source := { g.source with state := s.2 } }

/-- Hands out the next value. -/
def resolve (g : Generator W) (w : W) : Except Fault (Delivery W) × Generator W × W :=
  let (result, s, w) := g.pull (g.first, g.source.state) w
  (result, g.withState s, w)

/-- Hands out the next value, and hands it on: at once if it is there, else when it is settled. -/
def resolveWith (g : Generator W) (callback : Value → W → W) (w : W) :
    Except Fault (Delivery W) × Generator W × W :=
  match g.resolve w with
  | (.ok (.now v), g, w) => (.ok (.now v), g, callback v w)
  | (.ok d, g, w) => (.ok (.tap d callback), g, w)
  | (.error f, g, w) => (.error f, g, w)

/-- Builds a generator over a source, at a depth of nesting, by drawing its first value. -/
def ofSource (kind : String) (args : List String) (depth : Nat) (source : Source W) (w : W) :
    Except Fault (Generator W) × W :=
  match source.pull source.state w with
  | (.error f, _, w) => (.error f, w)
  | (.ok d, state, w) =>
    (.ok ⟨kind, args, d.isLate, some d, { source with state }⟩,
      Host.note (.built kind args.length depth d.isLate) w)

/-- A generator as shown in diagnostics. -/
def inspect (g : Generator W) : String :=
  "Generator \x7b type_name: " ++ Text.quoted g.kind ++ ", args: " ++
    Text.listed (g.args.map Text.quoted) ++ ", is_async: " ++
    (if g.isLate then "true" else "false") ++ ", probe_pending: " ++
    (if g.first.isSome then "true" else "false") ++ ", .. \x7d"

end Generator

end RandExpr
