/-!
# Spans

A stretch of a text, measured in the bytes of its UTF-8 form, and the size of a list of characters
in that measure.

## What is proved

`bytes_toList`: the size of a text is the sum of the sizes of its characters.
-/

namespace RandExpr.Text

/-- The bytes `start`, …, `start + length - 1` of a text. -/
structure Span where
  /-- The offset of the first byte. -/
  start : Nat
  /-- How many bytes. -/
  length : Nat
  deriving DecidableEq, Repr

/-- How many bytes the UTF-8 form of the characters has. -/
def bytes : List Char → Nat
  | [] => 0
  | c :: cs => c.utf8Size + bytes cs

@[simp] theorem bytes_nil : bytes [] = 0 := rfl

@[simp] theorem bytes_cons (c : Char) (cs : List Char) :
    bytes (c :: cs) = c.utf8Size + bytes cs := rfl

@[simp] theorem bytes_append (cs ds : List Char) : bytes (cs ++ ds) = bytes cs + bytes ds := by
  induction cs with
  | nil => simp
  | cons c cs ih => rw [List.cons_append, bytes_cons, bytes_cons, ih, Nat.add_assoc]

@[simp] theorem bytes_toList (s : String) : bytes s.toList = s.utf8ByteSize := by
  have bytes_ofList (cs : List Char) : bytes cs = (String.ofList cs).utf8ByteSize := by
    induction cs with
    | nil => simp
    | cons c cs ih =>
      rw [bytes_cons, ih, ← List.singleton_append, String.ofList_append,
        String.utf8ByteSize_append, ← String.singleton_eq_ofList, String.utf8ByteSize_singleton]
  rw [bytes_ofList, String.ofList_toList]

end RandExpr.Text
