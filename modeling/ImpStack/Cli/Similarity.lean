/-! # Similar words

When a word on the command line names nothing, the names close to it are offered instead.
Closeness is the Jaro similarity: two characters match when they are equal and no further
apart than half the longer word's length less one, each character matching at most once;
with `m` matches and `t` half the number of matched characters that stand out of order, the
similarity is `(m / |a| + m / |b| + (m - t) / m) / 3`, computed in doubles, and zero when
nothing matches. A name is offered when its similarity exceeds 0.7, the better ones last.
-/

namespace ImpStack

namespace Similarity

/-- Marks, left to right, the first unmarked position of `b` inside the window of each
character of `a`; returns the marks of `a` and of `b`. -/
def matchMarks (a b : List Char) : List Bool × List Bool :=
  let range := (max a.length b.length / 2) - 1
  let step (acc : List Bool × List Bool × Nat) (c : Char) : List Bool × List Bool × Nat :=
    let (marksA, marksB, i) := acc
    let lo := i - range
    let hi := min b.length (i + range + 1)
    let found := (List.range hi).find? fun j =>
      decide (lo ≤ j) && b.getD j ' ' == c && !marksB.getD j true
    match found with
    | some j => (marksA ++ [true], marksB.set j true, i + 1)
    | none => (marksA ++ [false], marksB, i + 1)
  let (marksA, marksB, _) := a.foldl step ([], List.replicate b.length false, 0)
  (marksA, marksB)

/-- The matched characters of a word, in order. -/
def matched (w : List Char) (marks : List Bool) : List Char :=
  ((w.zip marks).filter (·.2)).map (·.1)

/-- The Jaro similarity of two words. -/
def jaro (a b : String) : Float :=
  let ca := a.toList
  let cb := b.toList
  if ca.isEmpty && cb.isEmpty then 1
  else if ca.isEmpty || cb.isEmpty then 0
  else
    let (marksA, marksB) := matchMarks ca cb
    let ma := matched ca marksA
    let mb := matched cb marksB
    let m := ma.length
    let t := ((ma.zip mb).filter fun (x, y) => x != y).length / 2
    if m == 0 then 0
    else
      (m.toFloat / ca.length.toFloat + m.toFloat / cb.length.toFloat +
        (m - t).toFloat / m.toFloat) / 3

/-- The least similarity at which a name is offered. -/
def threshold : Float := 7 / 10

/-- The names similar to a word, the most similar last; names equally similar keep their
order. -/
def similar (word : String) (names : List String) : List String :=
  let scored := names.filterMap fun n =>
    let s := jaro word n
    if s > threshold then some (s, n) else none
  (scored.mergeSort fun x y => decide (x.1 ≤ y.1)).map (·.2)

/-- The name most similar to a word, if any is similar enough; of equally similar names the
last. -/
def closest? (word : String) (names : List String) : Option String :=
  (similar word names).getLast?

end Similarity

end ImpStack
