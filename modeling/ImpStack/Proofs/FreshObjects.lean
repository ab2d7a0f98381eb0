import ImpStack.Proofs.FreshCode
import ImpStack.Proofs.WideningCopies

/-! # Fresh values on the machine

  What the code that creates a fresh value (`Creates`) does when it runs. A fresh value is
  described on the heap by its type (`Value.Fresh`): a scalar is its zero, `false` or the empty
  string; a record or an array is a reference to a new object, and its parts fill the addresses
  after it, one part after the other, so that every object of the value has an address of its
  own. A record's field of a record or array type holds a fresh value of that type, and so does
  an element of an array of records or arrays; every other field or element holds what the
  machine puts in a new object, the first value of its kind: `0`, `false`, `0.0`, or no object
  at all for a string.

  Records are found by their class, so the module running the code must lay out every record the
  value holds as the type table has it (`Module.LaysOut`).

  Each case of the code gets its run lemma: a constant, an array of scalars, a record whose
  fields are filled one after the other (`FillsAt`), and an array filled by an index loop
  whose invariant (`Made`) says that the rounds done have made the first elements. `Creates.runs`
  puts them together by induction on the code, and `fresh_value_created` says it of lowering.
-/

namespace ImpStack

open Machine Lower

/-! ## Record layouts -/

/-- `u` is `t` or a part of `t` at some depth: the resolved type of a record's field, or an
array's element type. -/
inductive Ty.Part (env : TypeEnv) : Ty → Ty → Prop
  | self (t : Ty) : Part env t t
  | field {name f : String} {fields : List (String × Ty)} {fty ft u : Ty}
      (mem : (f, fty) ∈ fields) (resolves : resolveIn env fty = .ok ft) (part : Part env ft u) :
      Part env (.record name fields) u
  | element {e u : Ty} {n : Int} (part : Part env e u) : Part env (.array e n) u

/-- A module lays out the record `name` with the fields `fields` as the type table has it: the
field names are all different, and the module's class of that name has the same fields, in
order, each of the kind of its type. -/
structure Module.Lays (m : Module) (env : TypeEnv) (name : String)
    (fields : List (String × Ty)) : Prop where
  distinct : (fields.map Prod.fst).Nodup
  layout : ∃ td, m.typeDef? name = some td ∧
    List.Forall₂ (fun p q => q.1 = p.1 ∧ ValueKind.of env p.2 = .ok q.2) fields td.fields

/-- A module lays out every record that a value of type `t` holds, at any depth. -/
def Module.LaysOut (m : Module) (env : TypeEnv) (t : Ty) : Prop :=
  ∀ name fields, Ty.Part env t (.record name fields) → m.Lays env name fields

namespace Module.LaysOut

variable {m : Module} {env : TypeEnv}

theorem record {name : String} {fields : List (String × Ty)}
    (h : m.LaysOut env (.record name fields)) : m.Lays env name fields :=
  h name fields (.self _)

theorem field {name f : String} {fields : List (String × Ty)} {fty ft : Ty}
    (h : m.LaysOut env (.record name fields)) (mem : (f, fty) ∈ fields)
    (resolves : resolveIn env fty = .ok ft) : m.LaysOut env ft :=
  fun n fs part => h n fs (.field mem resolves part)

theorem element {e : Ty} {n : Int} (h : m.LaysOut env (.array e n)) : m.LaysOut env e :=
  fun n fs part => h n fs (.element part)

/-- Every class a resolved type's kind names is one the module defines. The recursion is on the
type: an array's kind names the classes of its element's. -/
theorem classesDefined : ∀ {t : Ty}, m.LaysOut env t → ∀ {k : ValueKind},
    ValueKind.ofResolved t = .ok k → Machine.classesDefined m k = true
  | .prim p, _, k, hk => by
    cases p <;> simp only [ValueKind.ofResolved, Except.ok.injEq] at hk <;> subst hk <;> rfl
  | .record name fields, h, k, hk => by
    simp only [ValueKind.ofResolved, Except.ok.injEq] at hk
    subst hk
    obtain ⟨td, found, -⟩ := h.record.layout
    simp [Machine.classesDefined, found]
  | .array e n, h, k, hk => by
    simp only [ValueKind.ofResolved] at hk
    cases he : ValueKind.ofResolved e with
    | error _ => simp [he, Functor.map, Except.map] at hk
    | ok k' =>
      simp only [he, Functor.map, Except.map, Except.ok.injEq] at hk
      subst hk
      simp only [Machine.classesDefined]
      exact classesDefined h.element he
  | .named _, _, _, hk => by simp [ValueKind.ofResolved] at hk

end Module.LaysOut

/-! ## Fresh values -/

namespace Value

mutual

/-- `v`, on `heap`, is a fresh value of the resolved type `t` whose objects fill the addresses
from `lo` below `hi`: a scalar's zero, `false` or empty string, with no object; or a
reference to a new record or array at `lo`, whose parts fill the addresses after it. The
elements of an array of scalars are all the first value of their kind. -/
inductive Fresh (env : TypeEnv) (heap : List Obj) : Nat → Nat → Ty → Value → Prop
  | integer {lo : Nat} : Fresh env heap lo lo (.prim .integer) (.int 0)
  | real {lo : Nat} : Fresh env heap lo lo (.prim .real) (.real 0.0)
  | boolean {lo : Nat} : Fresh env heap lo lo (.prim .boolean) (.int 0)
  | string {lo : Nat} : Fresh env heap lo lo (.prim .string) (.str "")
  | record {lo hi : Nat} {name : String} {fields : List (String × Ty)}
      {values : List (String × Value)} (found : heap[lo]? = some (.record name values))
      (parts : FreshFields env heap (lo + 1) hi fields values) :
      Fresh env heap lo hi (.record name fields) (.ref lo)
  | arrayOfScalars {lo : Nat} {e : Ty} {n : Int} {k : ValueKind}
      (kind : ValueKind.ofResolved e = .ok k) (scalar : e.isAggregate = false)
      (found : heap[lo]? = some (.array (List.replicate n.toNat (initial k)))) :
      Fresh env heap lo (lo + 1) (.array e n) (.ref lo)
  | arrayOfAggregates {lo hi : Nat} {e : Ty} {n : Int} {items : List Value}
      (aggregate : e.isAggregate = true) (found : heap[lo]? = some (.array items))
      (length : items.length = n.toNat) (parts : FreshItems env heap (lo + 1) hi e items) :
      Fresh env heap lo hi (.array e n) (.ref lo)

/-- The fields of a fresh record, named as the record type's, filling the addresses from `lo`
below `hi`: a field of a record or array type holds a fresh value of the type its type resolves
to, after the parts of the fields before it; any other field holds the first value of its
kind. -/
inductive FreshFields (env : TypeEnv) (heap : List Obj) :
    Nat → Nat → List (String × Ty) → List (String × Value) → Prop
  | nil {lo : Nat} : FreshFields env heap lo lo [] []
  | scalar {lo hi : Nat} {f : String} {fty ft : Ty} {k : ValueKind}
      {fields : List (String × Ty)} {values : List (String × Value)}
      (resolves : resolveIn env fty = .ok ft) (scalar : ft.isAggregate = false)
      (kind : ValueKind.of env fty = .ok k) (rest : FreshFields env heap lo hi fields values) :
      FreshFields env heap lo hi ((f, fty) :: fields) ((f, initial k) :: values)
  | aggregate {lo mid hi : Nat} {f : String} {fty ft : Ty} {v : Value}
      {fields : List (String × Ty)} {values : List (String × Value)}
      (resolves : resolveIn env fty = .ok ft) (aggregate : ft.isAggregate = true)
      (part : Fresh env heap lo mid ft v) (rest : FreshFields env heap mid hi fields values) :
      FreshFields env heap lo hi ((f, fty) :: fields) ((f, v) :: values)

/-- The elements of a fresh array of records or arrays, each a fresh value of the element type
filling the addresses after the one before. -/
inductive FreshItems (env : TypeEnv) (heap : List Obj) : Nat → Nat → Ty → List Value → Prop
  | empty {lo : Nat} {e : Ty} : FreshItems env heap lo lo e []
  | cons {lo mid hi : Nat} {e : Ty} {v : Value} {items : List Value}
      (part : Fresh env heap lo mid e v) (rest : FreshItems env heap mid hi e items) :
      FreshItems env heap lo hi e (v :: items)

end

variable {env : TypeEnv} {heap : List Obj}

/-- A fresh value's addresses run upwards; a record or an array takes at least its own. -/
theorem Fresh.le {lo hi : Nat} {t : Ty} {v : Value} (h : Fresh env heap lo hi t v) : lo ≤ hi := by
  induction h using Fresh.rec (motive_2 := fun lo hi _ _ _ => lo ≤ hi)
    (motive_3 := fun lo hi _ _ _ => lo ≤ hi) <;> omega

theorem FreshFields.le {lo hi : Nat} {fields : List (String × Ty)}
    {values : List (String × Value)} (h : FreshFields env heap lo hi fields values) : lo ≤ hi := by
  induction h using FreshFields.rec (motive_1 := fun lo hi _ _ _ => lo ≤ hi)
    (motive_3 := fun lo hi _ _ _ => lo ≤ hi) <;> omega

theorem FreshItems.le {lo hi : Nat} {e : Ty} {items : List Value}
    (h : FreshItems env heap lo hi e items) : lo ≤ hi := by
  induction h using FreshItems.rec (motive_1 := fun lo hi _ _ _ => lo ≤ hi)
    (motive_2 := fun lo hi _ _ _ => lo ≤ hi) <;> omega

variable {heap' : List Obj}

/-- A fresh value stays one on any heap that has the same objects at its addresses. The
induction is on the value, its fields and its elements: each part keeps its own addresses. -/
theorem Fresh.frame {lo hi : Nat} {t : Ty} {v : Value} (h : Fresh env heap lo hi t v)
    (agree : ∀ a, lo ≤ a → a < hi → heap'[a]? = heap[a]?) : Fresh env heap' lo hi t v := by
  induction h using Fresh.rec
    (motive_2 := fun lo hi fields values _ => (∀ a, lo ≤ a → a < hi → heap'[a]? = heap[a]?) →
      FreshFields env heap' lo hi fields values)
    (motive_3 := fun lo hi e items _ => (∀ a, lo ≤ a → a < hi → heap'[a]? = heap[a]?) →
      FreshItems env heap' lo hi e items) with
  | integer => exact .integer
  | real => exact .real
  | boolean => exact .boolean
  | string => exact .string
  | record found parts ih =>
    have := parts.le
    exact .record ((agree _ (Nat.le_refl _) (by omega)).trans found)
      (ih fun a h₁ h₂ => agree a (by omega) h₂)
  | arrayOfScalars kind scalar found =>
    exact .arrayOfScalars kind scalar ((agree _ (Nat.le_refl _) (by omega)).trans found)
  | arrayOfAggregates aggregate found length parts ih =>
    have := parts.le
    exact .arrayOfAggregates aggregate ((agree _ (Nat.le_refl _) (by omega)).trans found) length
      (ih fun a h₁ h₂ => agree a (by omega) h₂)
  | nil => exact .nil
  | scalar resolves scalar kind _ ih => exact .scalar resolves scalar kind (ih ‹_›)
  | aggregate resolves aggregate part rest ihp ihr =>
    rename_i agree
    have := part.le
    have := rest.le
    exact .aggregate resolves aggregate (ihp fun a h₁ h₂ => agree a h₁ (by omega))
      (ihr fun a h₁ h₂ => agree a (by omega) h₂)
  | empty => exact .empty
  | cons part rest ihp ihr =>
    rename_i agree
    have := part.le
    have := rest.le
    exact .cons (ihp fun a h₁ h₂ => agree a h₁ (by omega)) (ihr fun a h₁ h₂ => agree a (by omega) h₂)

/-- The elements of a fresh array stay fresh on any heap that has the same objects at their
addresses. -/
theorem FreshItems.frame {lo hi : Nat} {e : Ty} {items : List Value}
    (h : FreshItems env heap lo hi e items)
    (agree : ∀ a, lo ≤ a → a < hi → heap'[a]? = heap[a]?) : FreshItems env heap' lo hi e items := by
  induction h using FreshItems.rec (motive_1 := fun _ _ _ _ _ => True)
    (motive_2 := fun _ _ _ _ _ => True) with
  | empty => exact .empty
  | cons part rest _ ih =>
    have := part.le
    have := rest.le
    exact .cons (part.frame fun a h₁ h₂ => agree a h₁ (by omega))
      (ih fun a h₁ h₂ => agree a (by omega) h₂)
  | _ => trivial

/-- One more element made after the others. -/
theorem FreshItems.snoc {lo mid hi : Nat} {e : Ty} {items : List Value} {v : Value}
    (h : FreshItems env heap lo mid e items) (last : Fresh env heap mid hi e v) :
    FreshItems env heap lo hi e (items ++ [v]) := by
  induction h using FreshItems.rec (motive_1 := fun _ _ _ _ _ => True)
    (motive_2 := fun _ _ _ _ _ => True) with
  | empty => exact .cons last .empty
  | cons part _ _ ih => exact .cons part (ih last)
  | _ => trivial

end Value

/-! ## Records and arrays on the heap -/

/-- The fields of a new object of a class whose fields have the kinds `layout`: each holds the
first value of its kind. -/
def initialFields (layout : List (String × ValueKind)) : List (String × Value) :=
  layout.map fun q => (q.1, Value.initial q.2)

@[simp] theorem initialFields_nil : initialFields [] = [] := rfl

@[simp] theorem initialFields_cons (f : String) (k : ValueKind)
    (layout : List (String × ValueKind)) :
    initialFields ((f, k) :: layout) = (f, Value.initial k) :: initialFields layout := rfl

@[simp] theorem initialFields_names (layout : List (String × ValueKind)) :
    (initialFields layout).map Prod.fst = layout.map Prod.fst := by
  simp [initialFields]

/-- Setting the field of a name that no other field has changes that field alone. -/
theorem setGlobal_single {pre post : List (String × Value)} {f : String} {x v : Value}
    (hpre : f ∉ pre.map Prod.fst) (hpost : f ∉ post.map Prod.fst) :
    setGlobal (pre ++ (f, x) :: post) f v = pre ++ (f, v) :: post := by
  -- an entry of another name is kept
  have keep : ∀ l : List (String × Value), f ∉ l.map Prod.fst →
      l.map (fun g => if g.1 == f then (f, v) else g) = l := by
    intro l hl
    induction l with
    | nil => rfl
    | cons g l ih =>
      simp only [List.map_cons, List.mem_cons, not_or] at hl
      rw [List.map_cons, ih hl.2, if_neg (by simpa using Ne.symm hl.1)]
  rw [setGlobal, List.map_append, List.map_cons, keep pre hpre, keep post hpost]
  simp

/-- In a list whose keys are all different, a key is found with the value it has. -/
theorem lookup_of_mem {l : List (String × ValueKind)} (hl : (l.map Prod.fst).Nodup) {f : String}
    {k : ValueKind} (h : (f, k) ∈ l) : l.lookup f = some k := by
  induction l with
  | nil => simp at h
  | cons q l ih =>
    obtain ⟨f', k'⟩ := q
    simp only [List.map_cons, List.nodup_cons, List.mem_map, not_exists, not_and] at hl
    rcases List.mem_cons.mp h with same | later
    · simp only [Prod.mk.injEq] at same
      obtain ⟨rfl, rfl⟩ := same
      exact List.lookup_cons_self
    · have hne : f ≠ f' := by
        rintro rfl
        exact hl.1 (f, k) later rfl
      simp [List.lookup_cons, beq_false_of_ne hne, ih hl.2 later]

/-- Fields related one to one have the same names. -/
theorem names_of_forall₂ {env : TypeEnv} {fields : List (String × Ty)}
    {layout : List (String × ValueKind)}
    (h : List.Forall₂ (fun p q => q.1 = p.1 ∧ ValueKind.of env p.2 = .ok q.2) fields layout) :
    layout.map Prod.fst = fields.map Prod.fst := by
  induction h with
  | nil => rfl
  | cons hd _ ih => simp [hd.1, ih]

/-- A field of a class whose fields have different names is found at its kind. -/
theorem fieldDefined_of_mem {m : Module} {name : String} {td : TypeDef}
    (found : m.typeDef? name = some td) (distinct : (td.fields.map Prod.fst).Nodup) {f : String}
    {k : ValueKind} (mem : (f, k) ∈ td.fields) : fieldDefined m name f k = true := by
  simp [fieldDefined, found, lookup_of_mem distinct mem]

/-- The kind of a type is the kind of the type it resolves to. -/
theorem ValueKind.of_resolveIn {env : TypeEnv} {t r : Ty} (h : resolveIn env t = .ok r) :
    ValueKind.of env t = ValueKind.of env r := by
  rw [ValueKind.of_resolved (resolveIn_resolved h)]
  simp [ValueKind.of, resolveDeep_of_resolveIn h]

/-- Setting an object to the one already there changes nothing. -/
theorem set_of_getElem? {l : List Obj} {a : Nat} {x : Obj} (h : l[a]? = some x) : l.set a x = l := by
  obtain ⟨_, rfl⟩ := List.getElem?_eq_some_iff.mp h
  simp

/-- An object below a heap's old end replaced, objects added, and the same object replaced
again: as if all were added at once. -/
theorem set_append_set {h e₁ e₂ : List Obj} {a : Nat} (ha : a < h.length) (x y : Obj) :
    ((h ++ e₁).set a x ++ e₂).set a y = (h ++ (e₁ ++ e₂)).set a y := by
  rw [List.set_append_left _ _ ha, List.append_assoc, List.set_append_left _ _ (by simpa using ha),
    List.set_set, List.set_append_left _ _ ha]

/-- Replacing an object below a heap's old end and adding more leaves the objects from the old
end on as they were. -/
theorem getElem?_set_append {h e₁ e₂ : List Obj} {a c : Nat} (ha : a < h.length)
    (hc : h.length ≤ c) (hc' : c < h.length + e₁.length) (x : Obj) :
    ((h ++ (e₁ ++ e₂)).set a x)[c]? = (h ++ e₁)[c]? := by
  rw [List.getElem?_set_ne (by omega), ← List.append_assoc,
    List.getElem?_append_left (by simp; omega)]

/-- The same, for objects added after the replacement. -/
theorem getElem?_set_append_above {h e₁ e₂ : List Obj} {a c : Nat} (ha : a < h.length)
    (hc : h.length + e₁.length ≤ c) (x y : Obj) :
    ((h ++ (e₁ ++ e₂)).set a y)[c]? = ((h ++ e₁).set a x ++ e₂)[c]? := by
  rw [List.getElem?_set_ne (by omega), ← List.append_assoc,
    List.getElem?_append_right (by simp; omega), List.getElem?_append_right (by simp; omega)]
  simp

section Steps

variable {m : Module} {s : Store} {stack : List Value} {locals : List (Nat × Value)}

theorem step_newRecord {name : String} {td : TypeDef} (found : m.typeDef? name = some td) :
    step m ⟨stack, locals⟩ s (.newRecord name) =
      .next ⟨.ref s.heap.length :: stack, locals⟩
        { s with heap := s.heap ++ [.record name (initialFields td.fields)] } := by
  simp only [step, found, Store.alloc, Step.push]
  rfl

theorem step_putField {name f : String} {k : ValueKind} {a : Nat} {fields : List (String × Value)}
    {v : Value} (defined : fieldDefined m name f k = true)
    (found : s.heap[a]? = some (.record name fields)) :
    step m ⟨v :: .ref a :: stack, locals⟩ s (.putField name f k) =
      .next ⟨stack, locals⟩ { s with heap := s.heap.set a (.record name (setGlobal fields f v)) } := by
  simp [step, defined, Store.obj?, found, Store.update]

end Steps

/-! ## The code on the machine -/

/-- Code placed at `pos`, of length `len`, creates a fresh value of type `t`: from any state it
reaches its end with a fresh value of `t` pushed, its objects new ones at the heap's end, the
store otherwise as it was, and every slot below `base` as it was. -/
def CreatesAt (m : Module) (routine : List Instr) (pos len base : Nat) (env : TypeEnv) (t : Ty) :
    Prop :=
  ∀ stack locals (s : Store), ∃ v extra locals',
    Reaches m routine ⟨pos, ⟨stack, locals⟩, s⟩
      ⟨pos + len, ⟨v :: stack, locals'⟩, { s with heap := s.heap ++ extra }⟩ ∧
    Value.Fresh env (s.heap ++ extra) s.heap.length (s.heap.length + extra.length) t v ∧
    ∀ slot < base, locals'.lookup slot = locals.lookup slot

/-- Code placed at `pos`, of length `len`, fills the fields `fields`, of kinds `layout`, of a
record of class `name`: from any state whose heap holds, at an address `a` below its end, a
record of that class whose fields are `pre`, filled already, followed by `layout`'s fields at
their first values, and with `a` on top of the stack, it reaches its end with `a` on top
again and the record's fields `pre` followed by fresh values for `fields`, whose objects are
new ones at the heap's end; the store is otherwise as it was, and so is every slot below
`base`. -/
def FillsAt (m : Module) (routine : List Instr) (pos len base : Nat) (env : TypeEnv)
    (name : String) (fields : List (String × Ty)) (layout : List (String × ValueKind)) : Prop :=
  ∀ (pre : List (String × Value)) (a : Nat) stack locals (s : Store), a < s.heap.length →
    s.heap[a]? = some (.record name (pre ++ initialFields layout)) →
    (pre.map Prod.fst ++ layout.map Prod.fst).Nodup →
    ∃ values extra locals',
      Reaches m routine ⟨pos, ⟨.ref a :: stack, locals⟩, s⟩
        ⟨pos + len, ⟨.ref a :: stack, locals'⟩,
          { s with heap := (s.heap ++ extra).set a (.record name (pre ++ values)) }⟩ ∧
      Value.FreshFields env ((s.heap ++ extra).set a (.record name (pre ++ values)))
        s.heap.length (s.heap.length + extra.length) fields values ∧
      ∀ slot < base, locals'.lookup slot = locals.lookup slot

section Runs

variable {m : Module} {routine : List Instr} {pos : Nat} {env : TypeEnv}

/-- A scalar's constant is pushed in one step. -/
theorem constant_creates {c : Constant} {t : Ty} {base : Nat} (placed : Placed routine pos [.push c])
    (fresh : ∀ heap lo, Value.Fresh env heap lo lo t (Value.ofConstant c)) :
    CreatesAt m routine pos 1 base env t := by
  intro stack locals s
  refine ⟨Value.ofConstant c, [], locals, ?_, fresh _ _, fun _ _ => rfl⟩
  rw [List.append_nil]
  exact .single (.next (placed.instr (j := 0) rfl) (step_push c))

/-- An array of scalars is made in two steps, every element its kind's first value. -/
theorem arrayOfScalars_creates {e : Ty} {n : Int} {k : ValueKind} {base : Nat}
    (fits : 0 ≤ n ∧ IsWord n) (kind : ValueKind.ofResolved e = .ok k)
    (scalar : e.isAggregate = false) (defined : classesDefined m k = true)
    (placed : Placed routine pos [.push (.int n), .newArray k]) :
    CreatesAt m routine pos 2 base env (.array e n) := by
  intro stack locals s
  refine ⟨.ref s.heap.length, [.array (List.replicate n.toNat (Value.initial k))], locals, ?_,
    .arrayOfScalars kind scalar (by simp), fun _ _ => rfl⟩
  refine .head (.next (placed.instr (j := 0) rfl) (step_push _)) ?_
  exact .single (.next (placed.instr (j := 1) rfl) (step_newArray defined fits.2 fits.1))

/-- A record is made by `new`, each field at its first value, and its fields are then filled. -/
theorem record_creates {name : String} {fields : List (String × Ty)} {code : List Instr}
    {base : Nat} {td : TypeDef} (found : m.typeDef? name = some td)
    (distinct : (td.fields.map Prod.fst).Nodup)
    (placed : Placed routine pos (.newRecord name :: code))
    (fill : FillsAt m routine (pos + 1) code.length base env name fields td.fields) :
    CreatesAt m routine pos (.newRecord name :: code).length base env (.record name fields) := by
  intro stack locals s
  have make : Reaches m routine ⟨pos, ⟨stack, locals⟩, s⟩ ⟨pos + 1, ⟨.ref s.heap.length :: stack,
      locals⟩, { s with heap := s.heap ++ [.record name (initialFields td.fields)] }⟩ :=
    .single (.next (placed.instr (j := 0) rfl) (step_newRecord found))
  obtain ⟨values, extra, locals', run, parts, kept⟩ := fill [] s.heap.length stack locals
    { s with heap := s.heap ++ [.record name (initialFields td.fields)] } (by simp) (by simp)
    (by simpa using distinct)
  -- the record, filled, stays where `new` put it, before the fields' objects
  have heap : (s.heap ++ [Obj.record name (initialFields td.fields)] ++ extra).set s.heap.length
      (Obj.record name ([] ++ values)) = s.heap ++ Obj.record name values :: extra := by simp
  have hi : (s.heap ++ [Obj.record name (initialFields td.fields)]).length + extra.length =
      s.heap.length + (Obj.record name values :: extra).length := by simp; omega
  dsimp only at run parts
  rw [heap] at run parts
  rw [hi] at parts
  have placedRecord : (s.heap ++ Obj.record name values :: extra)[s.heap.length]? =
      some (Obj.record name values) := by simp
  refine ⟨.ref s.heap.length, .record name values :: extra, locals', ?_,
    .record placedRecord (by simpa using parts), kept⟩
  rw [List.length_cons, show pos + (code.length + 1) = pos + 1 + code.length by omega]
  exact make.trans run

/-- No field left: the record stays as it is. -/
theorem fills_nil {base : Nat} {name : String} : FillsAt m routine pos 0 base env name [] [] := by
  intro pre a stack locals s _ found _
  refine ⟨[], [], locals, ?_, .nil, fun _ _ => rfl⟩
  rw [List.append_nil, List.append_nil, set_of_getElem? (by simpa using found)]
  exact .refl

/-- A scalar field is left at its first value. -/
theorem fills_scalar {len base : Nat} {name f : String} {fty ft : Ty} {k : ValueKind}
    {fields : List (String × Ty)} {layout : List (String × ValueKind)}
    (resolves : resolveIn env fty = .ok ft) (scalar : ft.isAggregate = false)
    (kind : ValueKind.of env fty = .ok k)
    (rest : FillsAt m routine pos len base env name fields layout) :
    FillsAt m routine pos len base env name ((f, fty) :: fields) ((f, k) :: layout) := by
  intro pre a stack locals s ha found distinct
  obtain ⟨values, extra, locals', run, parts, kept⟩ := rest (pre ++ [(f, Value.initial k)]) a stack
    locals s ha (by simpa using found) (by simpa using distinct)
  refine ⟨(f, Value.initial k) :: values, extra, locals', by simpa using run, ?_, kept⟩
  simpa using Value.FreshFields.scalar resolves scalar kind parts

/-- A record or array field is created on top of the record, stored into its field, and the
fields after it are filled: its objects come before theirs, and the record keeps it as they
are filled. -/
theorem fills_aggregate {base : Nat} {name f : String} {fty ft : Ty} {k : ValueKind}
    {fields : List (String × Ty)} {layout : List (String × ValueKind)} {inner code : List Instr}
    (resolves : resolveIn env fty = .ok ft) (aggregate : ft.isAggregate = true)
    (defined : fieldDefined m name f k = true)
    (placed : Placed routine pos (.dup :: inner ++ .putField name f k :: code))
    (part : CreatesAt m routine (pos + 1) inner.length base env ft)
    (rest : FillsAt m routine (pos + inner.length + 2) code.length base env name fields layout) :
    FillsAt m routine pos (.dup :: inner ++ .putField name f k :: code).length base env name
      ((f, fty) :: fields) ((f, k) :: layout) := by
  intro pre a stack locals s ha found distinct
  have hpre : f ∉ pre.map Prod.fst := by
    simp only [List.map_cons, List.nodup_append, List.nodup_cons] at distinct
    exact fun h => distinct.2.2 f h f (by simp) rfl
  have hpost : f ∉ (initialFields layout).map Prod.fst := by
    simp only [List.map_cons, List.nodup_append, List.nodup_cons] at distinct
    simpa using distinct.2.1.1
  -- the record twice on the stack, and the field's value created over it
  have dup : Reaches m routine ⟨pos, ⟨.ref a :: stack, locals⟩, s⟩
      ⟨pos + 1, ⟨.ref a :: .ref a :: stack, locals⟩, s⟩ :=
    .single (.next (placed.instr (j := 0) rfl) (step_dup _))
  obtain ⟨v, e₁, locals₁, run₁, fresh₁, kept₁⟩ := part (.ref a :: .ref a :: stack) locals s
  -- stored into its field, the only one of its name
  have found₁ : (s.heap ++ e₁)[a]? = some (.record name (pre ++ (f, Value.initial k) ::
      initialFields layout)) := by
    rw [List.getElem?_append_left ha]
    simpa using found
  have fetch : routine[pos + 1 + inner.length]? = some (.putField name f k) := by
    have := placed.instr (j := inner.length + 1) (i := .putField name f k) (by simp)
    rwa [show pos + (inner.length + 1) = pos + 1 + inner.length by omega] at this
  have store : Reaches m routine ⟨pos + 1 + inner.length, ⟨v :: .ref a :: .ref a :: stack,
      locals₁⟩, { s with heap := s.heap ++ e₁ }⟩ ⟨pos + inner.length + 2, ⟨.ref a :: stack,
      locals₁⟩, { s with heap := (s.heap ++ e₁).set a (.record name (pre ++ (f, v) ::
        initialFields layout)) }⟩ := by
    rw [show pos + inner.length + 2 = pos + 1 + inner.length + 1 by omega,
      ← setGlobal_single hpre hpost]
    exact .single (.next fetch (step_putField defined found₁))
  -- the fields after it, filled from there
  obtain ⟨values, e₂, locals₂, run₂, parts, kept₂⟩ := rest (pre ++ [(f, v)]) a stack locals₁
    { s with heap := (s.heap ++ e₁).set a (.record name (pre ++ (f, v) :: initialFields layout)) }
    (by simp; omega) (by dsimp only; rw [List.getElem?_set_self (by simp; omega)]; simp)
    (by simpa using distinct)
  have heap : ((s.heap ++ e₁).set a (.record name (pre ++ (f, v) :: initialFields layout)) ++
      e₂).set a (.record name (pre ++ [(f, v)] ++ values)) =
      (s.heap ++ (e₁ ++ e₂)).set a (.record name (pre ++ (f, v) :: values)) := by
    rw [set_append_set ha]
    simp
  simp only [heap, List.length_set, List.length_append] at run₂ parts
  refine ⟨(f, v) :: values, e₁ ++ e₂, locals₂, ?_, ?_, fun slot hs => ?_⟩
  · have hlen : pos + (.dup :: inner ++ .putField name f k :: code).length =
        pos + inner.length + 2 + code.length := by simp; omega
    rw [hlen]
    exact dup.trans (run₁.trans (store.trans run₂))
  · -- the field's value keeps its objects, which nothing after it touches
    have := fresh₁.le
    refine .aggregate resolves aggregate (fresh₁.frame fun c h₁ h₂ => ?_)
      (by simpa [Nat.add_assoc] using parts)
    exact getElem?_set_append ha h₁ (by simpa using h₂) _
  · rw [kept₂ slot hs, kept₁ slot hs]

/-- The index loop that makes the elements of a new array at address `a`, of `n` elements of
type `e` and kind `k`, run from the store `s` right after the array was made, over the rest of
the stack `stack` and the slots `locals`: after `i` rounds, at the loop's head, the array is on
top of the stack, every slot below the index is as it was, and the store is as it was but for
new objects at the heap's end and the array, whose first `i` elements are fresh values filling
those objects one after the other, the others still their kind's first value. -/
structure Made (env : TypeEnv) (e : Ty) (n : Int) (k : ValueKind) (a index : Nat)
    (stack : List Value) (locals : List (Nat × Value)) (s : Store) (i : Nat) (f : Activation)
    (s' : Store) : Prop where
  stack : f.stack = .ref a :: stack
  below : ∀ slot < index, f.locals.lookup slot = locals.lookup slot
  made : ∃ done extra, done.length = i ∧
    s' = { s with
      heap := (s.heap ++ extra).set a
        (.array (done ++ List.replicate (n.toNat - i) (Value.initial k))) } ∧
    Value.FreshItems env ((s.heap ++ extra).set a
      (.array (done ++ List.replicate (n.toNat - i) (Value.initial k))))
      s.heap.length (s.heap.length + extra.length) e done

section Made

variable {e : Ty} {n : Int} {k : ValueKind} {a index : Nat} {stack : List Value}
  {locals : List (Nat × Value)} {s : Store}

/-- Before the first round the array is as `newarray` made it. -/
theorem Made.start (found : s.heap[a]? = some (.array (List.replicate n.toNat (Value.initial k)))) :
    Made env e n k a index stack locals s 0
      ⟨.ref a :: stack, (index, .int (Int32.ofInt ((0 : Nat) : Int))) :: locals⟩ s := by
  refine ⟨rfl, fun slot hs => lookup_cons_of_ne (by omega) _ _, [], [], rfl, ?_, .empty⟩
  rw [List.append_nil, List.nil_append, Nat.sub_zero, set_of_getElem? found]

/-- One round, from the head of the loop's body: the array and the index are pushed, the
element is created over them, and stored at the index, one more round done. The element's own
code keeps the index's slot and those below, which lie below its own, and makes its objects
after those of the elements before, so they stay as they were. -/
theorem made_round {start stop : Label} {inner : List Instr}
    (loop : IndexLoop.At routine pos index n start stop
      ([.dup, .load index .int] ++ inner ++ [.arrayStore k]))
    (word : IsWord n) (element : CreatesAt m routine (pos + 8) inner.length (index + 1) env e)
    (ha : a < s.heap.length) {i : Nat} {f : Activation} {s' : Store} (below : (i : Int) < n)
    (made : Made env e n k a index stack locals s i f s')
    (counter : f.locals.lookup index = some (.int (Int32.ofInt i))) :
    ∃ f' s'', Reaches m routine ⟨pos + 6, f, s'⟩
        ⟨pos + 6 + ([Instr.dup, .load index .int] ++ inner ++ [Instr.arrayStore k]).length, f',
          s''⟩ ∧
      f'.locals.lookup index = some (.int (Int32.ofInt i)) ∧
      Made env e n k a index stack locals s (i + 1)
        ⟨f'.stack, (index, .int (Int32.ofInt ((i + 1 : Nat) : Int))) :: f'.locals⟩ s'' := by
  obtain ⟨stack', L⟩ := f
  obtain ⟨hstack, hbelow, done, extra, hdone, rfl, items⟩ := made
  dsimp only at hstack hbelow counter
  subst hstack
  have word_i : IsWord i := by unfold IsWord at word ⊢; omega
  have hi : i < n.toNat := by omega
  have body := loop.placed_body
  -- the array twice and the index, then the element created over them
  set row := done ++ List.replicate (n.toNat - i) (Value.initial k) with hrow
  have load : Reaches m routine ⟨pos + 6, ⟨.ref a :: stack, L⟩,
      { s with heap := (s.heap ++ extra).set a (.array row) }⟩
      ⟨pos + 8, ⟨.int (Int32.ofInt i) :: .ref a :: .ref a :: stack, L⟩,
        { s with heap := (s.heap ++ extra).set a (.array row) }⟩ := by
    refine .head (.next (body.instr (j := 0) rfl) (step_dup _)) ?_
    exact .single (.next (body.instr (j := 1) rfl) (step_load _ counter))
  obtain ⟨v, extra', L', run, fresh, kept⟩ :=
    element (.int (Int32.ofInt i) :: .ref a :: .ref a :: stack) L
      { s with heap := (s.heap ++ extra).set a (.array row) }
  dsimp only at run fresh
  -- stored at the index, which the element's objects leave alone
  have hrest : n.toNat - i = (n.toNat - (i + 1)) + 1 := by omega
  have found : ((s.heap ++ extra).set a (.array row) ++ extra')[a]? = some (.array row) := by
    rw [List.getElem?_append_left (by simp; omega), List.getElem?_set_self (by simp; omega)]
  have fetch : routine[pos + 8 + inner.length]? = some (.arrayStore k) := by
    have := body.instr (j := inner.length + 2) (i := .arrayStore k) (by simp)
    rwa [show pos + 6 + (inner.length + 2) = pos + 8 + inner.length by omega] at this
  have store : step m ⟨v :: .int (Int32.ofInt i) :: .ref a :: .ref a :: stack, L'⟩
      { s with heap := (s.heap ++ extra).set a (.array row) ++ extra' } (.arrayStore k) =
      .next ⟨.ref a :: stack, L'⟩ { s with
        heap := ((s.heap ++ extra).set a (.array row) ++ extra').set a (.array (row.set i v)) } :=
    step_arrayStore found (by simp [hrow]; omega) word_i
  have setRow : row.set i v =
      (done ++ [v]) ++ List.replicate (n.toNat - (i + 1)) (Value.initial k) := by
    rw [hrow, hrest, ← hdone, List.set_append_right _ _ (Nat.le_refl _), Nat.sub_self,
      List.replicate_succ, List.set_cons_zero]
    simp
  rw [setRow, set_append_set ha] at store
  refine ⟨⟨.ref a :: stack, L'⟩, { s with
      heap := (s.heap ++ (extra ++ extra')).set a
        (.array ((done ++ [v]) ++ List.replicate (n.toNat - (i + 1)) (Value.initial k))) },
    ?_, ?_, ⟨rfl, fun slot hs => ?_, done ++ [v], extra ++ extra', by simp [hdone], ?_, ?_⟩⟩
  · rw [show pos + 6 + ([Instr.dup, .load index .int] ++ inner ++ [Instr.arrayStore k]).length =
      pos + 8 + inner.length + 1 by simp; omega]
    exact load.trans (run.trans (.single (.next fetch store)))
  · rw [kept _ (by omega), counter]
  · rw [lookup_cons_of_ne (by omega), kept _ (by omega), hbelow _ hs]
  · rfl
  · -- the elements before keep their objects, and the new one its own, after theirs
    have := items.le
    simp only [List.length_set, List.length_append] at fresh
    have := fresh.le
    rw [List.length_append, ← Nat.add_assoc]
    refine (items.frame fun c h₁ h₂ => ?_).snoc (fresh.frame fun c h₁ h₂ => ?_)
    · rw [getElem?_set_append ha h₁ h₂, List.getElem?_set_ne (by omega)]
    · exact getElem?_set_append_above ha h₁ _ _

/-- An array of records or arrays: `newarray`, then the index loop, which makes one element a
round, in order, each after the objects of the ones before. -/
theorem arrayOfAggregates_creates {base : Nat} {start stop : Label} {inner : List Instr}
    (fits : 0 ≤ n ∧ IsWord n) (slot : base ≤ index) (defined : classesDefined m k = true)
    (placed : Placed routine pos ([.push (.int n), .newArray k] ++
      IndexLoop.code index n start stop ([.dup, .load index .int] ++ inner ++ [.arrayStore k])))
    (aggregate : e.isAggregate = true)
    (element : CreatesAt m routine (pos + 10) inner.length (index + 1) env e) :
    CreatesAt m routine pos ([Instr.push (.int n), .newArray k] ++ IndexLoop.code index n start stop
      ([Instr.dup, .load index .int] ++ inner ++ [Instr.arrayStore k])).length base env
      (.array e n) := by
  intro stack locals s
  have loop : IndexLoop.At routine (pos + 2) index n start stop
      ([.dup, .load index .int] ++ inner ++ [.arrayStore k]) := placed.right
  have make : Reaches m routine ⟨pos, ⟨stack, locals⟩, s⟩ ⟨pos + 2, ⟨.ref s.heap.length :: stack,
      locals⟩, { s with heap := s.heap ++ [.array (List.replicate n.toNat (Value.initial k))] }⟩ := by
    refine .head (.next (placed.instr (j := 0) rfl) (step_push _)) ?_
    exact .single (.next (placed.instr (j := 1) rfl) (step_newArray defined fits.2 fits.1))
  have made0 : (s.heap ++ [Obj.array (List.replicate n.toNat (Value.initial k))])[s.heap.length]? =
      some (.array (List.replicate n.toNat (Value.initial k))) := by simp
  -- every round makes one element, after the objects of the ones before
  obtain ⟨f', s', run, made⟩ := loop.runs fits.2 (f := ⟨.ref s.heap.length :: stack, locals⟩)
    (s := { s with heap := s.heap ++ [.array (List.replicate n.toNat (Value.initial k))] })
    (Made env e n k s.heap.length index stack locals
      { s with heap := s.heap ++ [.array (List.replicate n.toNat (Value.initial k))] })
    (fun i f s' below made counter => made_round loop fits.2
      (by rwa [show pos + 2 + 8 = pos + 10 by omega]) (by simp) below made counter)
    (Made.start made0)
  obtain ⟨stack', L⟩ := f'
  obtain ⟨hstack, hbelow, done, extra, hdone, rfl, items⟩ := made
  dsimp only at hstack hbelow
  subst hstack
  -- after the last round the array holds every element, where `newarray` put it
  have heap : (s.heap ++ [Obj.array (List.replicate n.toNat (Value.initial k))] ++ extra).set
      s.heap.length (.array (done ++ List.replicate (n.toNat - n.toNat) (Value.initial k))) =
      s.heap ++ .array done :: extra := by simp
  rw [heap] at items run
  have found : (s.heap ++ Obj.array done :: extra)[s.heap.length]? = some (.array done) := by simp
  refine ⟨.ref s.heap.length, .array done :: extra, L, ?_, .arrayOfAggregates aggregate found hdone
    (by simpa [Nat.add_assoc, Nat.add_comm 1] using items), fun slot hs => hbelow slot (by omega)⟩
  have hlen : pos + ([Instr.push (.int n), .newArray k] ++ IndexLoop.code index n start stop
      ([.dup, .load index .int] ++ inner ++ [.arrayStore k])).length =
      pos + 2 + ([Instr.dup, .load index .int] ++ inner ++ [Instr.arrayStore k]).length + 12 := by
    simp [IndexLoop.code]; omega
  rw [hlen]
  exact make.trans run

end Made

/-- The fields of a record whose code creates its parts: each of the kind its class lays out,
stored into a field the module defines, and each part's records laid out too. -/
def FieldsLaidOut (m : Module) (env : TypeEnv) (name : String) (fields : List (String × Ty))
    (layout : List (String × ValueKind)) : Prop :=
  List.Forall₂ (fun p q => q.1 = p.1 ∧ ValueKind.of env p.2 = .ok q.2) fields layout ∧
    (∀ q ∈ layout, fieldDefined m name q.1 q.2 = true) ∧
    ∀ f fty ft, (f, fty) ∈ fields → resolveIn env fty = .ok ft → m.LaysOut env ft

/-- The first field of fields laid out, and the others laid out. -/
theorem FieldsLaidOut.cons {name f : String} {fty : Ty} {fields : List (String × Ty)}
    {layout : List (String × ValueKind)}
    (h : FieldsLaidOut m env name ((f, fty) :: fields) layout) :
    ∃ k rest, layout = (f, k) :: rest ∧ ValueKind.of env fty = .ok k ∧
      fieldDefined m name f k = true ∧
      (∀ ft, resolveIn env fty = .ok ft → m.LaysOut env ft) ∧
      FieldsLaidOut m env name fields rest := by
  obtain ⟨hl, defined, lays⟩ := h
  obtain ⟨⟨g, k⟩, rest, ⟨hg, hk⟩, hrest, rfl⟩ := List.forall₂_cons_left_iff.mp hl
  dsimp only at hg hk
  subst hg
  exact ⟨k, rest, rfl, hk, defined _ (.head _), fun ft => lays g fty ft (.head _),
    hrest, fun q hq => defined q (.tail _ hq), fun f fty ft mem => lays f fty ft (.tail _ mem)⟩

/-- Code that creates a fresh value runs as it says wherever it is placed, in a module that
lays out every record of the value. The induction follows the code's shape, with the fields of
a record filled one at a time. -/
theorem Creates.runs {base : Nat} {t : Ty} {code : List Instr} (h : Creates env base t code)
    (lays : m.LaysOut env t) (placed : Placed routine pos code) :
    CreatesAt m routine pos code.length base env t := by
  induction h using Creates.rec
    (motive_2 := fun base name fields code _ => ∀ {pos} (layout : List (String × ValueKind)),
      FieldsLaidOut m env name fields layout → Placed routine pos code →
      FillsAt m routine pos code.length base env name fields layout) generalizing pos with
  | integer => exact constant_creates placed fun _ _ => .integer
  | real => exact constant_creates placed fun _ _ => .real
  | boolean => exact constant_creates placed fun _ _ => .boolean
  | string => exact constant_creates placed fun _ _ => .string
  | @record _ name _ code _ ih =>
    obtain ⟨distinct, td, found, layout⟩ := lays.record
    have names := names_of_forall₂ layout
    have distinct' : (td.fields.map Prod.fst).Nodup := names ▸ distinct
    have fill : Placed routine (pos + 1) code := Placed.right (a := [.newRecord name]) placed
    exact record_creates found distinct' placed
      (ih td.fields ⟨layout, fun q hq => fieldDefined_of_mem found distinct' hq,
        fun _ _ _ mem resolves => lays.field mem resolves⟩ fill)
  | arrayOfScalars fits kind scalar =>
    exact arrayOfScalars_creates fits kind scalar (lays.element.classesDefined kind) placed
  | arrayOfAggregates fits kind aggregate slot _ ih =>
    have loop : IndexLoop.At routine (pos + 2) _ _ _ _ _ := placed.right
    have body := loop.placed_body.left.right
    rw [show pos + 2 + 6 + List.length [Instr.dup, .load _ .int] = pos + 10 by simp] at body
    exact arrayOfAggregates_creates fits slot (lays.element.classesDefined kind) placed aggregate
      (ih lays.element body)
  | nil =>
    rename_i laid _
    obtain ⟨hl, -⟩ := laid
    cases hl
    exact fills_nil
  | scalar resolves scalar _ ih =>
    rename_i laid placed
    obtain ⟨k, rest, rfl, hk, -, -, laid⟩ := laid.cons
    exact fills_scalar resolves scalar hk (ih rest laid placed)
  | @aggregate _ name f _ _ k _ inner code resolves aggregate kind _ _ ihp ihr =>
    rename_i pos _ laid placed
    obtain ⟨k', rest, rfl, hk, defined, lays, others⟩ := laid.cons
    -- the class lays the field out at the kind of the type it resolves to
    rw [ValueKind.of_resolveIn resolves, kind, Except.ok.injEq] at hk
    subst hk
    have hcode : Instr.dup :: inner ++ .putField name f k :: code =
        ([Instr.dup] ++ inner ++ [.putField name f k]) ++ code := by simp
    have part : Placed routine (pos + 1) inner := (Placed.right (a := [.dup]) placed).left
    have tail := (hcode ▸ placed).right
    rw [show pos + ([Instr.dup] ++ inner ++ [Instr.putField name f k]).length = pos + inner.length + 2
      by simp; omega] at tail
    exact fills_aggregate resolves aggregate defined placed (ihp (lays _ resolves) part)
      (ihr rest others tail)

end Runs

/-- Lowering a fresh value of a type that can be created succeeds and appends code that, placed
anywhere in a module that lays out the records of the type it resolves to, creates a fresh
value of that type: it pushes the value, whose objects are new ones at the heap's end, and
leaves the rest of the store, and every slot below the counter at the start, as they were. -/
theorem fresh_value_created (cx : LowerCtx) {t r : Ty} (resolves : resolveIn cx.env t = .ok r)
    (creatable : Creatable cx.env (Ty.depthBudget cx.env t) t) (st : LowerState) :
    Sat (newValue cx t) st (fun _ st' => ∃ code, st'.em.code.toList = st.em.code.toList ++ code ∧
      ∀ m routine pos, m.LaysOut cx.env r → Placed routine pos code →
        CreatesAt m routine pos code.length st.em.next cx.env r) (fun _ => False) := by
  refine (freshValue_creates cx creatable resolves st).mono (fun _ st' h => ?_) fun _ h => h
  obtain ⟨-, code, hcode, creates⟩ := h
  exact ⟨code, hcode, fun _ _ _ lays placed => creates.runs lays placed⟩

/-- A record with a string field and an array of integers can be created. -/
theorem labelled_scores_created :
    let t : Ty := .record "P" [("label", .string), ("scores", .array .integer 3)]
    let cx : LowerCtx := ⟨[], [], [], false⟩
    resolveIn cx.env t = .ok t ∧ Creatable cx.env (Ty.depthBudget cx.env t) t ∧
      Sat (newValue cx t) default (fun _ st' => ∃ code,
        st'.em.code.toList = (default : LowerState).em.code.toList ++ code ∧
        ∀ m routine pos, m.LaysOut cx.env t → Placed routine pos code →
          CreatesAt m routine pos code.length (default : LowerState).em.next cx.env t)
        (fun _ => False) := by
  intro t cx
  have resolves : resolveIn cx.env t = .ok t := rfl
  have creatable : Creatable cx.env (Ty.depthBudget cx.env t) t := by
    refine .record resolves (fun f fty mem => ?_) (fun f fty ft mem hft agg => ?_)
    · simp only [List.mem_cons, Prod.mk.injEq, List.not_mem_nil, or_false] at mem
      rcases mem with ⟨-, rfl⟩ | ⟨-, rfl⟩ <;> exact ⟨_, rfl⟩
    · simp only [List.mem_cons, Prod.mk.injEq, List.not_mem_nil, or_false] at mem
      rcases mem with ⟨-, rfl⟩ | ⟨-, rfl⟩
      · cases hft
        simp [Ty.isAggregate, Ty.string] at agg
      · cases hft
        exact .array rfl ⟨by decide, by decide⟩ fun h => by simp [Ty.isAggregate, Ty.integer] at h
  exact ⟨resolves, creatable, fresh_value_created cx resolves creatable default⟩

end ImpStack
