import RandExpr.Random.Keystream

/-!
# Random words

Taking the words of a key stream one after the other.

## The model

A supply (`Words`) holds the stream, the number of the block that comes next, and what is left of
the block before it. A double word is two words, the low half first, wherever the blocks end.
-/

namespace RandExpr.Random

/-- A supply of random words. -/
structure Words where
  /-- The stream they come from. -/
  stream : Keystream
  /-- The number of the next block. -/
  next : Nat := 0
  /-- The words left of the block before. -/
  left : List UInt32 := []

namespace Words

/-- Takes a word. -/
def take (ws : Words) : UInt32 × Words :=
  match ws.left with
  | w :: left => (w, { ws with left })
  | [] =>
    let block := ws.stream ws.next
    (block[0], { ws with next := ws.next + 1, left := block.toList.drop 1 })

/-- Takes a double word. -/
def takeDouble (ws : Words) : UInt64 × Words :=
  let (low, ws) := ws.take
  let (high, ws) := ws.take
  (low.toUInt64 ||| (high.toUInt64 <<< 32), ws)

end Words

/-- How many refused words in a row a draw puts up with. At most every other word is refused, so no
stream that is random comes near. -/
def patience : Nat := 1024

/-- Takes words with `take` until `accept?` makes something of one. After `patience` refused words
in a row the draw gives up and is `fallback`. -/
def drawUntil {ω α : Type} (take : Words → ω × Words) (accept? : ω → Option α) (fallback : α) :
    (patience : Nat) → Words → α × Words
  | 0, ws => (fallback, ws)
  | patience + 1, ws =>
    let (word, ws) := take ws
    match accept? word with
    | some a => (a, ws)
    | none => drawUntil take accept? fallback patience ws

end RandExpr.Random
