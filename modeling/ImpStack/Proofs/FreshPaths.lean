import ImpStack.Proofs.FreshObjects
import ImpStack.Proofs.Behaviour

/-! # Paths through fresh values

  A fresh value of a record or array type is a tree of new objects, reached by paths: a step
  into a record names a field, a step into an array an index (`Value.follow`), and the type a
  path reaches is the one the same steps select in the value's type (`Ty.along`).

  Every object a path from a fresh value reaches is one of its own, and no two paths reach the
  same one (`Value.Fresh.tree`). What a path reaches holds, for a record or array type, a
  reference to a new object; for any other type, the first value of its kind, which for a
  string is no object at all (`Value.Fresh.part_shape`). A string variable without initializer
  starts as the empty string, but a string field of a record does not: it starts as `null`
  and prints so (`string_field_starts_null`).
-/

namespace ImpStack

open Machine Lower

/-! ## Paths -/

/-- A step into an object: a record's field, by name, or an array's element, by index. -/
inductive Selector where
  | field (f : String)
  | index (i : Nat)
  deriving DecidableEq, Repr

/-- The value one step into an object reaches: the first field of the name, or the element at
the index. -/
def Obj.select : Obj → Selector → Option Value
  | .record _ values, .field f => values.lookup f
  | .array items, .index i => items[i]?
  | _, _ => none

/-- The resolved type one step into a value of a resolved type reaches: the type of the first
field of the name, or the element type. -/
def Ty.select (env : TypeEnv) : Ty → Selector → Option Ty
  | .record _ fields, .field f => (fields.lookup f).bind fun fty => (resolveIn env fty).toOption
  | .array e _, .index _ => some e
  | _, _ => none

/-- The type a path reaches. -/
def Ty.along (env : TypeEnv) (t : Ty) : List Selector → Option Ty
  | [] => some t
  | s :: path => (t.select env s).bind fun u => Ty.along env u path

namespace Value

/-- The value a path reaches from `v`, each step into the object the value before refers to. -/
def follow (heap : List Obj) : Value → List Selector → Option Value
  | v, [] => some v
  | .ref a, s :: path => (heap[a]?.bind fun o => o.select s).bind fun w => follow heap w path
  | _, _ :: _ => none

variable {heap : List Obj}

@[simp] theorem follow_nil (v : Value) : v.follow heap [] = some v := by
  cases v <;> rfl

/-- One step, then the rest of the path. -/
theorem follow_cons (v : Value) (s : Selector) (path : List Selector) :
    v.follow heap (s :: path) = (v.follow heap [s]).bind fun w => w.follow heap path := by
  cases v <;> simp [follow]

/-- A step from a reference to an object goes into that object. -/
theorem follow_step {a : Nat} {o : Obj} (found : heap[a]? = some o) (s : Selector) :
    (Value.ref a).follow heap [s] = o.select s := by
  simp [follow, found]

/-- A value that is no reference has no parts. -/
theorem follow_cons_of_ne_ref {v : Value} (hv : ∀ b, v ≠ .ref b) (s : Selector)
    (path : List Selector) : v.follow heap (s :: path) = none := by
  cases v with
  | ref b => exact absurd rfl (hv b)
  | _ => rfl

/-- A value that is no reference reaches no object, by any path. -/
theorem follow_ne_ref {v : Value} (hv : ∀ b, v ≠ .ref b) {path : List Selector} {a : Nat} :
    v.follow heap path ≠ some (.ref a) := by
  cases path with
  | nil => simpa using hv a
  | cons s path => simp [follow_cons_of_ne_ref hv]

/-- The first value of a kind is no reference. -/
theorem initial_ne_ref (k : ValueKind) (b : Nat) : initial k ≠ .ref b := by
  cases k <;> simp [initial]

/-! ## Trees of objects -/

/-- Every object a path from `v` reaches is at an address from `lo` below `hi`, and no two
paths reach the same one. -/
structure Tree (heap : List Obj) (lo hi : Nat) (v : Value) : Prop where
  within : ∀ path a, v.follow heap path = some (.ref a) → lo ≤ a ∧ a < hi
  unaliased : ∀ p q a, v.follow heap p = some (.ref a) → v.follow heap q = some (.ref a) → p = q

/-- A value that is no reference is an empty tree. -/
theorem Tree.of_ne_ref {v : Value} (hv : ∀ b, v ≠ .ref b) {lo hi : Nat} : Tree heap lo hi v :=
  ⟨fun _ _ h => absurd h (follow_ne_ref hv), fun _ _ _ h => absurd h (follow_ne_ref hv)⟩

/-- Trees from disjoint intervals reach no object in common. -/
theorem Tree.disjoint {lo mid hi : Nat} {v w : Value} (hv : Tree heap lo mid v)
    (hw : Tree heap mid hi w) {p q : List Selector} {a : Nat}
    (hp : v.follow heap p = some (.ref a)) (hq : w.follow heap q = some (.ref a)) : False := by
  have := hv.within p a hp
  have := hw.within q a hq
  omega

theorem Tree.widen {lo hi lo' hi' : Nat} {v : Value} (h : Tree heap lo hi v) (hlo : lo' ≤ lo)
    (hhi : hi ≤ hi') : Tree heap lo' hi' v := by
  refine ⟨fun path a reach => ?_, h.unaliased⟩
  have := h.within path a reach
  omega

/-- The parts of something, found by key with `get`, are trees from `lo` below `hi`, and parts
under different keys reach no object in common. -/
structure Apart (heap : List Obj) (lo hi : Nat) {κ : Type} (get : κ → Option Value) : Prop where
  tree : ∀ x w, get x = some w → Tree heap lo hi w
  apart : ∀ x y w w' p q a, get x = some w → get y = some w' → w.follow heap p = some (.ref a) →
    w'.follow heap q = some (.ref a) → x = y

variable {lo mid hi : Nat}

/-- Parts that are no references are apart. -/
theorem Apart.of_ne_ref {κ : Type} {get : κ → Option Value}
    (h : ∀ x w, get x = some w → ∀ b, w ≠ .ref b) : Apart heap lo hi get :=
  ⟨fun x w hx => .of_ne_ref (h x w hx),
    fun x _ w _ _ _ _ hx _ hp => absurd hp (follow_ne_ref (h x w hx))⟩

/-- A field in front of fields apart, as a tree before theirs, keeps them apart. -/
theorem Apart.consField {values : List (String × Value)} {g : String} {v : Value}
    (rest : Apart heap mid hi fun f => values.lookup f) (head : Tree heap lo mid v)
    (hlo : lo ≤ mid) (hhi : mid ≤ hi) :
    Apart heap lo hi fun f => ((g, v) :: values).lookup f := by
  refine ⟨fun x w hx => ?_, fun x y w w' p q a hx hy hp hq => ?_⟩
  · rw [List.lookup_cons] at hx
    split at hx
    · cases hx
      exact head.widen (Nat.le_refl _) hhi
    · exact (rest.tree x w hx).widen hlo (Nat.le_refl _)
  · rw [List.lookup_cons] at hx hy
    split at hx <;> split at hy
    · -- both the head field
      simp_all
    · cases hx
      exact (head.disjoint (rest.tree y w' hy) hp hq).elim
    · cases hy
      exact (head.disjoint (rest.tree x w hx) hq hp).elim
    · exact rest.apart x y w w' p q a hx hy hp hq

/-- An element in front of elements apart, as a tree before theirs, keeps them apart. -/
theorem Apart.consItem {items : List Value} {v : Value}
    (rest : Apart heap mid hi fun (i : Nat) => items[i]?) (head : Tree heap lo mid v)
    (hlo : lo ≤ mid) (hhi : mid ≤ hi) :
    Apart heap lo hi fun (i : Nat) => (v :: items)[i]? := by
  refine ⟨fun x w hx => ?_, fun x y w w' p q a hx hy hp hq => ?_⟩
  · cases x with
    | zero =>
      cases hx
      exact head.widen (Nat.le_refl _) hhi
    | succ i => exact (rest.tree i w hx).widen hlo (Nat.le_refl _)
  · cases x with
    | zero =>
      cases y with
      | zero => rfl
      | succ j =>
        cases hx
        exact (head.disjoint (rest.tree j w' hy) hp hq).elim
    | succ i =>
      cases y with
      | zero =>
        cases hy
        exact (head.disjoint (rest.tree i w hx) hq hp).elim
      | succ j => simpa using rest.apart i j w w' p q a hx hy hp hq

theorem Apart.record {values : List (String × Value)} (name : String)
    (h : Apart heap lo hi fun f => values.lookup f) : Apart heap lo hi (Obj.record name values).select := by
  refine ⟨fun x w hx => ?_, fun x y w w' p q a hx hy hp hq => ?_⟩
  · cases x with
    | field f => exact h.tree f w hx
    | index i => simp [Obj.select] at hx
  · cases x with
    | field f =>
      cases y with
      | field g => rw [h.apart f g w w' p q a hx hy hp hq]
      | index j => simp [Obj.select] at hy
    | index i => simp [Obj.select] at hx

theorem Apart.array {items : List Value} (h : Apart heap lo hi fun (i : Nat) => items[i]?) :
    Apart heap lo hi (Obj.array items).select := by
  refine ⟨fun x w hx => ?_, fun x y w w' p q a hx hy hp hq => ?_⟩
  · cases x with
    | field f => simp [Obj.select] at hx
    | index i => exact h.tree i w hx
  · cases x with
    | field f => simp [Obj.select] at hx
    | index i =>
      cases y with
      | field g => simp [Obj.select] at hy
      | index j => rw [h.apart i j w w' p q a hx hy hp hq]

/-- A reference to an object whose parts are apart, after it, is a tree: the object is its
own, and every other object a path reaches is reached through one part only. -/
theorem Tree.ref {o : Obj} (found : heap[lo]? = some o) (hlt : lo < hi)
    (parts : Apart heap (lo + 1) hi o.select) : Tree heap lo hi (.ref lo) := by
  -- a path that goes into the object reaches an object after it
  have inside : ∀ s path a, (Value.ref lo).follow heap (s :: path) = some (.ref a) →
      ∃ w, o.select s = some w ∧ w.follow heap path = some (.ref a) ∧ lo + 1 ≤ a ∧ a < hi := by
    intro s path a reach
    rw [follow_cons, follow_step found, Option.bind_eq_some_iff] at reach
    obtain ⟨w, hw, hpath⟩ := reach
    exact ⟨w, hw, hpath, (parts.tree s w hw).within path a hpath⟩
  refine ⟨fun path a reach => ?_, fun p q a hp hq => ?_⟩
  · cases path with
    | nil =>
      cases reach
      omega
    | cons s path =>
      obtain ⟨-, -, -, h⟩ := inside s path a reach
      omega
  · cases p with
    | nil =>
      cases q with
      | nil => rfl
      | cons s q =>
        cases hp
        obtain ⟨-, -, -, h, -⟩ := inside s q lo hq
        omega
    | cons s p =>
      cases q with
      | nil =>
        cases hq
        obtain ⟨-, -, -, h, -⟩ := inside s p lo hp
        omega
      | cons s' q =>
        obtain ⟨w, hw, hp', -⟩ := inside s p a hp
        obtain ⟨w', hw', hq', -⟩ := inside s' q a hq
        -- the two paths go into the same part, from which one path reaches each object
        obtain rfl := parts.apart s s' w w' p q a hw hw' hp' hq'
        rw [hw] at hw'
        cases hw'
        rw [(parts.tree s w hw).unaliased p q a hp' hq']

variable {env : TypeEnv}

/-- A fresh value is a tree of new objects: every object a path from it reaches is one of its
own, and no two paths reach the same one. The induction follows the value's parts; the parts
of a record or an array fill consecutive intervals of addresses, so they are apart. -/
theorem Fresh.tree {t : Ty} {v : Value} (h : Fresh env heap lo hi t v) : Tree heap lo hi v := by
  induction h using Fresh.rec
    (motive_2 := fun lo hi _ values _ => Apart heap lo hi fun f => values.lookup f)
    (motive_3 := fun lo hi _ items _ => Apart heap lo hi fun (i : Nat) => items[i]?) with
  | integer => exact .of_ne_ref (by simp)
  | real => exact .of_ne_ref (by simp)
  | boolean => exact .of_ne_ref (by simp)
  | string => exact .of_ne_ref (by simp)
  | record found parts ih => exact .ref found (by have := parts.le; omega) (ih.record _)
  | arrayOfScalars _ _ found =>
    refine .ref found (by omega) (Apart.array (.of_ne_ref fun i w hw => ?_))
    rw [(List.getElem?_eq_some_iff.mp hw).2.symm, List.getElem_replicate]
    exact initial_ne_ref _
  | arrayOfAggregates _ found _ parts ih =>
    exact .ref found (by have := parts.le; omega) ih.array
  | nil => exact .of_ne_ref (by simp)
  | scalar _ _ _ rest ih => exact ih.consField (.of_ne_ref (initial_ne_ref _)) (Nat.le_refl _) rest.le
  | aggregate _ _ part rest ihp ihr => exact ihr.consField ihp part.le rest.le
  | empty => exact .of_ne_ref (by simp)
  | cons part rest ihp ihr => exact ihr.consItem ihp part.le rest.le

/-! ## The parts of a fresh value -/

/-- What a part of a fresh value holds, by the part's resolved type: a fresh value of a record
or array type, or the first value of its kind for any other. -/
inductive Holds (env : TypeEnv) (heap : List Obj) : Ty → Value → Prop
  | fresh {lo hi : Nat} {u : Ty} {w : Value} (aggregate : u.isAggregate = true)
      (part : Fresh env heap lo hi u w) : Holds env heap u w
  | initial {u : Ty} {k : ValueKind} (scalar : u.isAggregate = false)
      (kind : ValueKind.ofResolved u = .ok k) : Holds env heap u (initial k)

/-- A part that has parts of its own is a fresh value. -/
theorem Holds.fresh_of_follow {u : Ty} {w x : Value} (h : Holds env heap u w) {s : Selector}
    {path : List Selector} (reach : w.follow heap (s :: path) = some x) :
    ∃ lo hi, Fresh env heap lo hi u w := by
  cases h with
  | fresh _ part => exact ⟨_, _, part⟩
  | initial => simp [follow_cons_of_ne_ref (initial_ne_ref _)] at reach

/-- A record or array part holds a reference to an object. -/
theorem Holds.object {u : Ty} {w : Value} (h : Holds env heap u w)
    (aggregate : u.isAggregate = true) : ∃ b o, w = .ref b ∧ heap[b]? = some o := by
  cases h with
  | fresh _ part =>
    cases part with
    | record found => exact ⟨_, _, rfl, found⟩
    | arrayOfScalars _ _ found => exact ⟨_, _, rfl, found⟩
    | arrayOfAggregates _ found => exact ⟨_, _, rfl, found⟩
    | _ => simp [Ty.isAggregate] at aggregate
  | initial scalar => simp [scalar] at aggregate

/-- A string part holds no object. -/
theorem Holds.string_null {w : Value} (h : Holds env heap (.prim .string) w) : w = .null := by
  cases h with
  | fresh aggregate => simp [Ty.isAggregate] at aggregate
  | initial _ kind =>
    simp only [ValueKind.ofResolved, Except.ok.injEq] at kind
    subst kind
    rfl

/-- The kind a type has is the kind of the type it resolves to. -/
theorem ofResolved_of_resolveIn {t r : Ty} {k : ValueKind} (resolves : resolveIn env t = .ok r)
    (kind : ValueKind.of env t = .ok k) : ValueKind.ofResolved r = .ok k := by
  rw [← ValueKind.of_resolved (resolveIn_resolved resolves), ← ValueKind.of_resolveIn resolves]
  exact kind

/-- The field of a name in fresh fields holds what the type of the first field of that name
says. The induction is on the fields, both lists in step. -/
theorem FreshFields.lookup {fields : List (String × Ty)} {values : List (String × Value)}
    (h : FreshFields env heap lo hi fields values) {f : String} {w : Value}
    (found : values.lookup f = some w) :
    ∃ u, ((fields.lookup f).bind fun fty => (resolveIn env fty).toOption) = some u ∧
      Holds env heap u w := by
  induction fields generalizing lo values with
  | nil =>
    cases h
    simp at found
  | cons field fields ih =>
    obtain ⟨g, fty⟩ := field
    cases h with
    | scalar resolves scalar kind rest =>
      by_cases hfg : f = g
      · subst hfg
        simp only [List.lookup_cons_self, Option.some.injEq] at found ⊢
        subst found
        exact ⟨_, by simp [resolves, Except.toOption], .initial scalar (ofResolved_of_resolveIn resolves kind)⟩
      · simp only [List.lookup_cons, beq_false_of_ne hfg] at found ⊢
        exact ih rest found
    | aggregate resolves aggregate part rest =>
      by_cases hfg : f = g
      · subst hfg
        simp only [List.lookup_cons_self, Option.some.injEq] at found ⊢
        subst found
        exact ⟨_, by simp [resolves, Except.toOption], .fresh aggregate part⟩
      · simp only [List.lookup_cons, beq_false_of_ne hfg] at found ⊢
        exact ih rest found

/-- An element of fresh elements is a fresh value. -/
theorem FreshItems.get {e : Ty} {items : List Value} (h : FreshItems env heap lo hi e items)
    {i : Nat} {w : Value} (found : items[i]? = some w) : ∃ lo hi, Fresh env heap lo hi e w := by
  induction items generalizing lo i with
  | nil => simp at found
  | cons v items ih =>
    cases h with
    | cons part rest =>
      cases i with
      | zero =>
        cases found
        exact ⟨_, _, part⟩
      | succ i => exact ih rest found

/-- One step into a fresh value reaches a part at the type the step selects. -/
theorem Fresh.step {t : Ty} {v : Value} (h : Fresh env heap lo hi t v) {s : Selector} {w : Value}
    (reach : v.follow heap [s] = some w) : ∃ u, t.select env s = some u ∧ Holds env heap u w := by
  cases h with
  | record found parts =>
    rw [follow_step found] at reach
    cases s with
    | field f => exact parts.lookup reach
    | index i => simp [Obj.select] at reach
  | arrayOfScalars kind scalar found =>
    rw [follow_step found] at reach
    cases s with
    | field f => simp [Obj.select] at reach
    | index i =>
      simp only [Obj.select, List.getElem?_replicate] at reach
      split at reach
      · cases reach
        exact ⟨_, rfl, .initial scalar kind⟩
      · cases reach
  | arrayOfAggregates aggregate found _ parts =>
    rw [follow_step found] at reach
    cases s with
    | field f => simp [Obj.select] at reach
    | index i =>
      obtain ⟨_, _, part⟩ := parts.get reach
      exact ⟨_, rfl, .fresh aggregate part⟩
  | _ => simp [follow] at reach

/-- A path into a fresh value reaches a part at the type the path selects in the value's type.
The induction is on the path, one step into an object at a time: a part with parts of its own
is a fresh value again. -/
theorem Fresh.follow_holds {t : Ty} {v : Value} (h : Fresh env heap lo hi t v) {s : Selector}
    {path : List Selector} {w : Value} (reach : v.follow heap (s :: path) = some w) :
    ∃ u, t.along env (s :: path) = some u ∧ Holds env heap u w := by
  induction path generalizing lo hi t v s with
  | nil =>
    obtain ⟨u, hu, holds⟩ := h.step reach
    exact ⟨u, by simp [Ty.along, hu], holds⟩
  | cons s' path ih =>
    rw [follow_cons, Option.bind_eq_some_iff] at reach
    obtain ⟨w₁, hw₁, rest⟩ := reach
    obtain ⟨u₁, hu₁, holds⟩ := h.step hw₁
    obtain ⟨_, _, part⟩ := holds.fresh_of_follow rest
    obtain ⟨u, hu, holds'⟩ := ih part rest
    refine ⟨u, ?_, holds'⟩
    rw [Ty.along, hu₁, Option.bind_some]
    exact hu

/-- Every part of a fresh value, at any depth, holds a reference to an object of its own when
its type is a record or array type, and no object at all when it is a string. -/
theorem Fresh.part_shape {t u : Ty} {v w : Value} (h : Fresh env heap lo hi t v) {s : Selector}
    {path : List Selector} (reach : v.follow heap (s :: path) = some w)
    (typed : t.along env (s :: path) = some u) :
    (u.isAggregate = true → ∃ b o, w = .ref b ∧ heap[b]? = some o ∧ lo ≤ b ∧ b < hi) ∧
      (u = .prim .string → w = .null) := by
  obtain ⟨u', hu', holds⟩ := h.follow_holds reach
  rw [typed, Option.some.injEq] at hu'
  subst hu'
  refine ⟨fun aggregate => ?_, fun string => ?_⟩
  · obtain ⟨b, o, rfl, found⟩ := holds.object aggregate
    exact ⟨b, o, rfl, found, h.tree.within _ b reach⟩
  · subst string
    exact holds.string_null

end Value

/-- A string field of a record starts as no object, where a string variable without
initializer starts as the empty string. The program declares a record `R` with a string field
`s` and a global `x` of type `R` without initializer, and prints `x.s`. The analyzer accepts
it; the initializer makes `x` with `new R` alone, which fills no field, so reading `s` gives
`null`, and the program prints `null`, not an empty line. -/
theorem string_field_starts_null :
    let p : Program := ⟨[.recordType "R" [("s", .string)], .varDecl "x" (some (.named "R")) none,
      .print (.field "x" "s")]⟩
    (analyze {} p).diagnostics = [] ∧
    ∃ m : Module, (compile {} p).1 = .ok m ∧
      m.initializer.map RoutineCode.code = some [.newRecord "R", .putGlobal "x" (.record "R"),
        .getGlobal "x" (.record "R"), .getField "R" "s" .str, .print .str, .ret .void] ∧
      m.Finishes .normal [.str none] ∧ ¬ m.Finishes .normal [.str (some "")] := by
  intro p
  refine ⟨rfl, _, rfl, rfl, ?_⟩
  refine (fun prints_null => ⟨prints_null, fun prints_empty => ?_⟩) ⟨by decide, 7, rfl⟩
  simpa using (prints_null.unique prints_empty).2

end ImpStack
