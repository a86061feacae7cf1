import RandExpr.Document.Reader
import RandExpr.Proofs.Document.Lexing
import RandExpr.Proofs.Keyed

/-!
# Reading back documents

The document that a JSON text was written from is the document that is read from it.

## The model

A document is read back (`Document.Exact`) if no number in it has a fraction, the keys of every
object increase, and arrays and objects are nested no deeper than the reader allows.

## What is proved

* `Document.Exact.readable` — the tokens of such a document can be told from their text.
* `Document.Exact.run_tokens` — the reader puts the tokens of a document together again, wherever
  the document stands.
* `Document.Exact.read?_print` — a document is read back from its text.
-/

namespace RandExpr

namespace Document

/-- The document has no numbers with a fraction, the keys of its objects increase, and arrays and
objects are nested at most so many levels deep. -/
inductive Exact : (levels : Nat) → Document → Prop where
  /-- A leaf. -/
  | leaf {levels : Nat} {l : Leaf} (h : l.IsExact) : Exact levels (.leaf l)
  /-- An array of such documents. -/
  | array {levels : Nat} {items : List Document} (h : ∀ d ∈ items, Exact levels d) :
      Exact (levels + 1) (.array items)
  /-- An object of such documents. -/
  | object {levels : Nat} {fields : List (String × Document)} (hkeys : Increasing fields)
      (h : ∀ f ∈ fields, Exact levels f.2) : Exact (levels + 1) (.object fields)

theorem itemTokens_cons_cons (d e : Document) (ds : List Document) :
    itemTokens (d :: e :: ds) = d.tokens ++ .comma :: itemTokens (e :: ds) := rfl

theorem fieldTokens_cons_cons (k : String) (d : Document) (f : String × Document)
    (fs : List (String × Document)) : fieldTokens ((k, d) :: f :: fs) =
      .leaf (.text k) :: .colon :: (d.tokens ++ .comma :: fieldTokens (f :: fs)) := rfl

/-! ### The tokens can be told apart -/

/-- The tokens can be read where a mark or the end stands behind them. -/
def IsReadable (d : Document) : Prop :=
  ∀ ⦃rest : List Token⦄, BeginsWithMark rest → Readable rest → Readable (d.tokens ++ rest)

theorem readable_itemTokens {items : List Document} {rest : List Token}
    (hitems : ∀ d ∈ items, d.IsReadable) (hnext : BeginsWithMark rest) (hrest : Readable rest) :
    Readable (itemTokens items ++ rest) := by
  induction items with
  | nil => exact hrest
  | cons d ds ih =>
    have hd := hitems d List.mem_cons_self
    have ih := ih fun e he => hitems e (List.mem_cons_of_mem _ he)
    cases ds with
    | nil => exact hd hnext hrest
    | cons e ds =>
      rw [itemTokens_cons_cons, List.append_assoc]
      exact hd (beginsWithMark_cons .comma trivial _) (.mark trivial ih)

theorem readable_key (k : String) {ts : List Token} (h : Readable ts) :
    Readable (.leaf (.text k) :: .colon :: ts) :=
  .leaf trivial (beginsWithMark_cons .colon trivial ts) (.mark trivial h)

theorem readable_fieldTokens {fields : List (String × Document)} {rest : List Token}
    (hfields : ∀ f ∈ fields, f.2.IsReadable) (hnext : BeginsWithMark rest) (hrest : Readable rest) :
    Readable (fieldTokens fields ++ rest) := by
  induction fields with
  | nil => exact hrest
  | cons f fs ih =>
    obtain ⟨k, d⟩ := f
    have hd := hfields (k, d) List.mem_cons_self
    have ih := ih fun e he => hfields e (List.mem_cons_of_mem _ he)
    cases fs with
    | nil => exact readable_key k (hd hnext hrest)
    | cons e fs =>
      rw [fieldTokens_cons_cons, List.cons_append, List.cons_append, List.append_assoc]
      exact readable_key k (hd (beginsWithMark_cons .comma trivial _) (.mark trivial ih))

/-- **The tokens of a document can be told from their text.** -/
theorem Exact.readable {levels : Nat} {d : Document} (h : d.Exact levels) : d.IsReadable := by
  induction h with
  | leaf hexact => exact fun _ hnext hrest => .leaf hexact hnext hrest
  | array _ ih =>
    intro rest _ hrest
    rw [tokens, List.cons_append, List.append_assoc]
    refine .mark trivial ?_
    exact readable_itemTokens ih (beginsWithMark_cons .closeArray trivial rest)
      (.mark trivial hrest)
  | object _ _ ih =>
    intro rest _ hrest
    rw [tokens, List.cons_append, List.append_assoc]
    refine .mark trivial ?_
    exact readable_fieldTokens ih (beginsWithMark_cons .closeObject trivial rest)
      (.mark trivial hrest)

/-! ### The tokens are put together -/

open Reader (run)

/-- The reader puts a document together wherever there is room for its levels. -/
def IsRead (levels : Nat) (d : Document) : Prop :=
  ∀ (frames : List Frame) (ts : List Token), frames.length + levels ≤ maxNesting →
    run (.value frames) (d.tokens ++ ts) = run (.after frames d) ts

/-- Where an item may come first, a document is read like any other item. -/
theorem run_firstItem (frames : List Frame) (d : Document) (ts : List Token) :
    run (.firstItem frames) (d.tokens ++ ts) =
      run (.value (.array [] :: frames)) (d.tokens ++ ts) := by
  cases d <;> rfl

/-- The items of an array are gathered in order behind those that are there. -/
theorem run_itemTokens {levels : Nat} {frames : List Frame} {ts : List Token}
    (hroom : frames.length + 1 + levels ≤ maxNesting) {d : Document} {ds : List Document}
    (hitems : ∀ e ∈ d :: ds, e.IsRead levels) (done : List Document) :
    run (.value (.array done :: frames)) (itemTokens (d :: ds) ++ .closeArray :: ts) =
      run (.after frames (.array (done.reverse ++ d :: ds))) ts := by
  induction ds generalizing d done with
  | nil =>
    have hd : run (.value (.array done :: frames)) (d.tokens ++ .closeArray :: ts) =
        run (.after (.array done :: frames) d) (.closeArray :: ts) :=
      hitems d List.mem_cons_self _ _ hroom
    rw [itemTokens, hd, ← List.reverse_cons]
    rfl
  | cons e ds ih =>
    have hd (us : List Token) : run (.value (.array done :: frames)) (d.tokens ++ us) =
        run (.after (.array done :: frames) d) us := hitems d List.mem_cons_self _ us hroom
    have hrest := ih (fun e he => hitems e (List.mem_cons_of_mem _ he)) (d :: done)
    rw [itemTokens_cons_cons, List.append_assoc, hd]
    refine hrest.trans ?_
    rw [List.reverse_cons, List.append_assoc]
    rfl

/-- The fields of an object are gathered in order behind those that are there, if their keys are
greater. -/
theorem run_fieldTokens {levels : Nat} {frames : List Frame} {ts : List Token}
    (hroom : frames.length + 1 + levels ≤ maxNesting) {k : String} {d : Document}
    {fs : List (String × Document)} (hfields : ∀ f ∈ (k, d) :: fs, f.2.IsRead levels)
    (done : Keyed Document) (hkeys : Increasing (done.entries ++ (k, d) :: fs)) :
    run (.key frames done) (fieldTokens ((k, d) :: fs) ++ .closeObject :: ts) =
      run (.after frames (.object (done.entries ++ (k, d) :: fs))) ts := by
  induction fs generalizing k d done with
  | nil =>
    have hd : run (.value (.object done k :: frames)) (d.tokens ++ .closeObject :: ts) =
        run (.after (.object done k :: frames) d) (.closeObject :: ts) :=
      hfields (k, d) List.mem_cons_self _ _ hroom
    rw [fieldTokens, ← Keyed.entries_insert_of_increasing hkeys]
    exact hd
  | cons f fs ih =>
    obtain ⟨l, e⟩ := f
    have hd (us : List Token) : run (.value (.object done k :: frames)) (d.tokens ++ us) =
        run (.after (.object done k :: frames) d) us := hfields (k, d) List.mem_cons_self _ us hroom
    have hentries : done.entries ++ (k, d) :: (l, e) :: fs =
        (done.insert k d).entries ++ (l, e) :: fs := by
      rw [Keyed.entries_insert_of_increasing hkeys, List.append_assoc]
      rfl
    have hrest := ih (fun f hf => hfields f (List.mem_cons_of_mem _ hf)) (done.insert k d)
      (hentries ▸ hkeys)
    rw [fieldTokens_cons_cons, hentries, ← hrest, List.cons_append, List.cons_append,
      List.append_assoc]
    exact hd _

theorem run_openArray {frames : List Frame} (hroom : frames.length < maxNesting) (ts : List Token) :
    run (.value frames) (.openArray :: ts) = run (.firstItem frames) ts := by
  show (Reader.beginValue frames .openArray).bind _ = _
  rw [Reader.beginValue, if_pos hroom]
  rfl

theorem run_openObject {frames : List Frame} (hroom : frames.length < maxNesting)
    (ts : List Token) :
    run (.value frames) (.openObject :: ts) = run (.firstKey frames) ts := by
  show (Reader.beginValue frames .openObject).bind _ = _
  rw [Reader.beginValue, if_pos hroom]
  rfl

theorem isRead_array {levels : Nat} {items : List Document} (h : ∀ d ∈ items, d.IsRead levels) :
    (array items).IsRead (levels + 1) := by
  intro frames ts hroom
  rw [tokens, List.cons_append, List.append_assoc, run_openArray (by omega)]
  cases items with
  | nil => rfl
  | cons d ds =>
    have hroom : frames.length + 1 + levels ≤ maxNesting := by omega
    have hfirst (us : List Token) : run (.firstItem frames) (itemTokens (d :: ds) ++ us) =
        run (.value (.array [] :: frames)) (itemTokens (d :: ds) ++ us) := by
      cases ds with
      | nil => exact run_firstItem frames d us
      | cons e ds =>
        rw [itemTokens_cons_cons, List.append_assoc]
        exact run_firstItem frames d _
    exact (hfirst _).trans (run_itemTokens hroom h [])

theorem isRead_object {levels : Nat} {fields : List (String × Document)} (hkeys : Increasing fields)
    (h : ∀ f ∈ fields, f.2.IsRead levels) : (object fields).IsRead (levels + 1) := by
  intro frames ts hroom
  rw [tokens, List.cons_append, List.append_assoc, run_openObject (by omega)]
  cases fields with
  | nil => rfl
  | cons f fs =>
    have hroom : frames.length + 1 + levels ≤ maxNesting := by omega
    have hfirst (us : List Token) : run (.firstKey frames) (fieldTokens (f :: fs) ++ us) =
        run (.key frames .empty) (fieldTokens (f :: fs) ++ us) := by
      cases fs <;> rfl
    exact (hfirst _).trans (run_fieldTokens hroom h .empty hkeys)

/-- **The tokens of a document are put together again.** -/
theorem Exact.run_tokens {levels : Nat} {d : Document} (h : d.Exact levels) : d.IsRead levels := by
  induction h with
  | leaf => exact fun frames ts _ => rfl
  | array _ ih => exact isRead_array ih
  | object hkeys _ ih => exact isRead_object hkeys ih

/-- **A document is read back from its text.** -/
theorem Exact.read?_print {d : Document} (h : d.Exact maxNesting) :
    Document.read? d.print = some d := by
  have hreadable : Readable (d.tokens ++ []) := h.readable beginsWithMark_nil .nil
  have hrun : run (.value []) (d.tokens ++ []) = run (.after [] d) [] :=
    h.run_tokens [] [] (by simp)
  rw [List.append_nil] at hreadable hrun
  rw [Document.read?, print, Token.ofText?_flatMap_chars hreadable, Option.bind_some, hrun]
  rfl

end Document

end RandExpr
