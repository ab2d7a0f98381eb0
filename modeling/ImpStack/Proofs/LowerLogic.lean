import ImpStack.Stack.Lower

/-! # Reasoning about lowering steps

  Lowering runs in a state monad with errors. `Sat m st Q E` says what running `m` from the
  state `st` guarantees: if it succeeds, `Q` holds of its result and of the state it leaves;
  if it fails, `E` holds of the error. Choosing `E` chooses the kind of statement:
  `fun _ => True` says only what a successful run gives, `fun _ => False` says in addition
  that the run succeeds.

  `Sat` goes through `bind` by nesting (`sat_bind`), so a chain of steps is taken apart by
  `simp` with the rules for the primitive steps below. A call to a lowering function proved
  correct elsewhere is discharged by that function's own lemma, stated for every
  postcondition its guarantee implies.
-/

namespace ImpStack

namespace Lower

/-- What running `m` from `st` guarantees: `Q` of the result and the final state on success,
`E` of the error on failure. -/
def Sat {α : Type} (m : LowerM α) (st : LowerState) (Q : α → LowerState → Prop)
    (E : Error → Prop) : Prop :=
  match m.run.run st with
  | (.ok a, st') => Q a st'
  | (.error e, _) => E e

section Rules

variable {α β : Type} {st : LowerState} {Q : β → LowerState → Prop} {E : Error → Prop}

theorem Sat.mono {m : LowerM β} {Q' : β → LowerState → Prop} {E' : Error → Prop}
    (h : Sat m st Q E) (hQ : ∀ b st', Q b st' → Q' b st') (hE : ∀ e, E e → E' e) :
    Sat m st Q' E' := by
  unfold Sat at *
  rcases hm : m.run.run st with ⟨r, st'⟩
  rw [hm] at h
  cases r with
  | ok b => exact hQ b st' h
  | error e => exact hE e h

/-- A postcondition that holds of every result and state holds after any step. -/
theorem Sat.of_forall {m : LowerM β} (hQ : ∀ b st', Q b st') (hE : ∀ e, E e) : Sat m st Q E := by
  unfold Sat
  rcases m.run.run st with ⟨r, st'⟩
  cases r with
  | ok b => exact hQ b st'
  | error e => exact hE e

@[simp] theorem sat_pure (b : β) : Sat (pure b) st Q E ↔ Q b st := Iff.rfl

@[simp] theorem sat_bind (m : LowerM α) (f : α → LowerM β) :
    Sat (m >>= f) st Q E ↔ Sat m st (fun a st' => Sat (f a) st' Q E) E := by
  unfold Sat
  simp only [ExceptT.run_bind, StateT.run_bind]
  rcases m.run.run st with ⟨r, st'⟩
  cases r <;> rfl

@[simp] theorem sat_throw (e : Error) : Sat (throw e : LowerM β) st Q E ↔ E e := Iff.rfl

@[simp] theorem sat_orFail (x : Except Error β) :
    Sat (orFail x) st Q E ↔ match x with
      | .ok b => Q b st
      | .error e => E e := by
  cases x <;> rfl

theorem sat_orFail_ok {x : Except Error β} {b : β} (h : x = .ok b) :
    Sat (orFail x) st Q E ↔ Q b st := by
  subst h; rfl

end Rules

/-! ## The primitive steps -/

section Primitives

variable {st : LowerState} {E : Error → Prop}

@[simp] theorem sat_emit (i : Instr) {Q : Unit → LowerState → Prop} :
    Sat (emit i) st Q E ↔ Q () { st with em := { st.em with code := st.em.code.push i } } :=
  Iff.rfl

@[simp] theorem sat_note (level : Level) (message : String) {Q : Unit → LowerState → Prop} :
    Sat (note level message) st Q E ↔
      Q () { st with log := st.log ++ [⟨level, .lowering, message⟩] } :=
  Iff.rfl

@[simp] theorem sat_emitter {Q : Emitter → LowerState → Prop} :
    Sat emitter st Q E ↔ Q st.em st :=
  Iff.rfl

@[simp] theorem sat_newLabel {Q : Label → LowerState → Prop} :
    Sat newLabel st Q E ↔
      Q st.labels
        { st with
          labels := st.labels + 1
          log := st.log ++ [⟨.trace, .lowering, "new label " ++ labelText st.labels⟩] } :=
  Iff.rfl

/-- The slot `allocate` hands out for a value of the given width. -/
def slotFor (alignWide : Bool) (width next : Nat) : Nat :=
  if alignWide && width == 2 && next % 2 == 1 then next + 1 else next

@[simp] theorem sat_allocate (alignWide : Bool) (width : Nat) {Q : Nat → LowerState → Prop} :
    Sat (allocate alignWide width) st Q E ↔
      Q (slotFor alignWide width st.em.next)
        { st with
          em := { st.em with next := slotFor alignWide width st.em.next + width }
          log := st.log ++ [⟨.trace, .lowering, "allocated slot " ++
            toString (slotFor alignWide width st.em.next) ++ " (width " ++ toString width ++
            ")"⟩] } :=
  Iff.rfl

/-- Binding a name in the innermost frame. -/
def bindIn (frames : List (List (String × Local))) (name : String) (l : Local) :
    List (List (String × Local)) :=
  match frames with
  | [] => []
  | f :: rest => assocSet f name l :: rest

@[simp] theorem sat_bindLocal (name : String) (l : Local) {Q : Unit → LowerState → Prop} :
    Sat (bindLocal name l) st Q E ↔
      Q () { st with em := { st.em with frames := bindIn st.em.frames name l } } :=
  Iff.rfl

@[simp] theorem sat_enterScope {Q : Unit → LowerState → Prop} :
    Sat enterScope st Q E ↔ Q () { st with em := { st.em with frames := [] :: st.em.frames } } :=
  Iff.rfl

@[simp] theorem sat_exitScope {Q : Unit → LowerState → Prop} :
    Sat exitScope st Q E ↔
      Q () { st with em := { st.em with frames :=
        if st.em.frames.length > 1 then st.em.frames.drop 1 else st.em.frames } } :=
  Iff.rfl

@[simp] theorem sat_startRoutine (name : String) (returnType : Ty)
    {Q : Unit → LowerState → Prop} :
    Sat (startRoutine name returnType) st Q E ↔
      Q () { st with em := Emitter.start name returnType } :=
  Iff.rfl

end Primitives

end Lower

end ImpStack
