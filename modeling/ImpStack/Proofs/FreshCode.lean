import ImpStack.Proofs.IndexLoops
import ImpStack.Proofs.Returns

/-! # The code that creates a fresh value

  A variable declared without an initializer starts from a fresh value of its type
  (`Lower.freshValue`): zero, `false` or the empty string for a scalar; for a record, a new
  record whose record and array fields are created one after the other and stored into it; for
  an array, a new array whose elements, when they are records or arrays, are created one by one
  by an index loop. A field or an element of a scalar type is left as the new object has it.

  `Creatable` says of a type alone when that recursion succeeds within a depth: the type and
  every field type resolve, no scalar is void, every array size is a word and not negative, and
  every record or array part can be created one level down. `Creates` describes the code
  lowering then emits, the slots it stores into drawn from `base` on; `freshValue_creates` says
  that lowering a creatable type emits exactly such code.
-/

namespace ImpStack

open Lower Machine

/-- A value of type `t` can be created within `fuel` levels. -/
inductive Creatable (env : TypeEnv) : Nat → Ty → Prop
  | scalar {fuel : Nat} {t : Ty} {p : Prim} (resolves : resolveIn env t = .ok (.prim p))
      (notVoid : p ≠ .void) : Creatable env (fuel + 1) t
  | record {fuel : Nat} {t : Ty} {name : String} {fields : List (String × Ty)}
      (resolves : resolveIn env t = .ok (.record name fields))
      (fieldsResolve : ∀ f fty, (f, fty) ∈ fields → ∃ ft, resolveIn env fty = .ok ft)
      (parts : ∀ f fty ft, (f, fty) ∈ fields → resolveIn env fty = .ok ft →
        ft.isAggregate = true → Creatable env fuel ft) :
      Creatable env (fuel + 1) t
  | array {fuel : Nat} {t e : Ty} {n : Int} (resolves : resolveIn env t = .ok (.array e n))
      (fits : 0 ≤ n ∧ IsWord n) (element : e.isAggregate = true → Creatable env fuel e) :
      Creatable env (fuel + 1) t

mutual

/-- The code that creates a fresh value of the resolved type `t`, storing only into slots from
`base` on: a scalar's constant; a new record followed by the code that fills its fields; or a
new array of `n` elements, followed, when they are records or arrays, by an index loop that
creates each element and stores it at its index. The loop's index takes a slot of its own and
the element's code the slots after it. -/
inductive Creates (env : TypeEnv) : Nat → Ty → List Instr → Prop
  | integer {base : Nat} : Creates env base (.prim .integer) [.push (.int 0)]
  | real {base : Nat} : Creates env base (.prim .real) [.push (.real 0.0)]
  | boolean {base : Nat} : Creates env base (.prim .boolean) [.push (.bool false)]
  | string {base : Nat} : Creates env base (.prim .string) [.push (.str "")]
  | record {base : Nat} {name : String} {fields : List (String × Ty)} {code : List Instr}
      (parts : CreatesFields env base name fields code) :
      Creates env base (.record name fields) (.newRecord name :: code)
  | arrayOfScalars {base : Nat} {e : Ty} {n : Int} {k : ValueKind} (fits : 0 ≤ n ∧ IsWord n)
      (kind : ValueKind.ofResolved e = .ok k) (scalar : e.isAggregate = false) :
      Creates env base (.array e n) [.push (.int n), .newArray k]
  | arrayOfAggregates {base index : Nat} {e : Ty} {n : Int} {k : ValueKind} {start stop : Label}
      {inner : List Instr} (fits : 0 ≤ n ∧ IsWord n) (kind : ValueKind.ofResolved e = .ok k)
      (aggregate : e.isAggregate = true) (slot : base ≤ index)
      (element : Creates env (index + 1) e inner) :
      Creates env base (.array e n) ([.push (.int n), .newArray k] ++
        IndexLoop.code index n start stop ([.dup, .load index .int] ++ inner ++ [.arrayStore k]))

/-- The code that creates the record and array fields of a record of class `name`, which is on
top of the stack, one after the other, each stored into its field; scalar fields emit
nothing. -/
inductive CreatesFields (env : TypeEnv) : Nat → String → List (String × Ty) → List Instr → Prop
  | nil {base : Nat} {name : String} : CreatesFields env base name [] []
  | scalar {base : Nat} {name f : String} {fty ft : Ty} {fields : List (String × Ty)}
      {code : List Instr} (resolves : resolveIn env fty = .ok ft)
      (scalar : ft.isAggregate = false) (rest : CreatesFields env base name fields code) :
      CreatesFields env base name ((f, fty) :: fields) code
  | aggregate {base : Nat} {name f : String} {fty ft : Ty} {k : ValueKind}
      {fields : List (String × Ty)} {inner code : List Instr}
      (resolves : resolveIn env fty = .ok ft) (aggregate : ft.isAggregate = true)
      (kind : ValueKind.of env ft = .ok k) (part : Creates env base ft inner)
      (rest : CreatesFields env base name fields code) :
      CreatesFields env base name ((f, fty) :: fields) (.dup :: inner ++ .putField name f k :: code)

end

variable {env : TypeEnv}

/-- Code that stores only from `base'` on stores only from any `base` below it. -/
theorem Creates.mono {base base' : Nat} {t : Ty} {code : List Instr}
    (h : Creates env base' t code) (hle : base ≤ base') : Creates env base t code := by
  induction h using Creates.rec
    (motive_2 := fun base' name fields code _ =>
      ∀ {base}, base ≤ base' → CreatesFields env base name fields code) generalizing base with
  | integer => exact .integer
  | real => exact .real
  | boolean => exact .boolean
  | string => exact .string
  | record _ ih => exact .record (ih hle)
  | arrayOfScalars fits kind scalar => exact .arrayOfScalars fits kind scalar
  | arrayOfAggregates fits kind aggregate slot element _ =>
    exact .arrayOfAggregates fits kind aggregate (by omega) element
  | nil => exact .nil
  | scalar resolves scalar _ ih => exact .scalar resolves scalar (ih ‹_›)
  | aggregate resolves aggregate kind _ _ ihp ihr =>
    exact .aggregate resolves aggregate kind (ihp ‹_›) (ihr ‹_›)

/-- The code for more fields is the code for the first ones followed by the code for the
last. -/
theorem CreatesFields.snoc {base : Nat} {name : String} {fields : List (String × Ty)}
    {field : String × Ty} {code last : List Instr} (h : CreatesFields env base name fields code)
    (hlast : CreatesFields env base name [field] last) :
    CreatesFields env base name (fields ++ [field]) (code ++ last) := by
  induction h using CreatesFields.rec (motive_1 := fun _ _ _ _ => True) with
  | nil => simpa using hlast
  | scalar resolves scalar _ ih => exact .scalar resolves scalar (ih hlast)
  | aggregate resolves aggregate kind part _ _ ih =>
    simpa using CreatesFields.aggregate resolves aggregate kind part (ih hlast)
  | _ => trivial

/-! ## Lowering emits it -/

section Lowering

variable {α β γ : Type} {st : LowerState} {E : Error → Prop}

/-- A loop over a list: an invariant of the elements done, the accumulator and the state, kept
by every step, which always goes on to the next element. -/
theorem sat_forIn {xs : List γ} {init : β} {f : γ → β → LowerM (ForInStep β)}
    (I : List γ → β → LowerState → Prop) (h₀ : I [] init st)
    (hf : ∀ done x rest b s, xs = done ++ x :: rest → I done b s →
      Sat (f x b) s (fun r s' => ∃ b', r = .yield b' ∧ I (done ++ [x]) b' s') E) :
    Sat (forIn xs init f) st (fun b s' => I xs b s') E := by
  -- the loop over what is left, once `done` is done
  have loop : ∀ rest done b s, xs = done ++ rest → I done b s →
      Sat (forIn rest b f) s (fun b s' => I xs b s') E := by
    intro rest
    induction rest with
    | nil =>
      intro done b s hxs hI
      rw [List.append_nil] at hxs
      subst hxs
      exact (sat_pure b).mpr hI
    | cons x rest ih =>
      intro done b s hxs hI
      rw [List.forIn_cons, sat_bind]
      refine (hf done x rest b s hxs hI).mono (fun r s' h => ?_) fun _ h => h
      obtain ⟨b', rfl, hI'⟩ := h
      exact ih (done ++ [x]) b' s' (by rw [hxs, List.append_assoc, List.singleton_append]) hI'
  exact loop xs [] init st rfl h₀

/-- A resolved type resolves to itself. -/
theorem resolveIn_self {t : Ty} (h : t.Resolved) : resolveIn env t = .ok t :=
  resolveIn_ok (Ty.resolveDeep_of_resolved h)

theorem resolveIn_resolved {t r : Ty} (h : resolveIn env t = .ok r) : r.Resolved :=
  Ty.resolveDeep_resolved (resolveDeep_of_resolveIn h)

/-- A one-slot value takes the next slot. -/
theorem slotFor_narrow (alignWide : Bool) (next : Nat) : slotFor alignWide 1 next = next := by
  simp [slotFor]

variable (cx : LowerCtx)

/-- What lowering a fresh value leaves: the slot counter not lower, and the code so far
followed by code that creates a value of `r`, storing from the counter on. -/
def EmitsFresh (st : LowerState) (r : Ty) (st' : LowerState) : Prop :=
  st.em.next ≤ st'.em.next ∧
    ∃ code, st'.em.code.toList = st.em.code.toList ++ code ∧ Creates cx.env st.em.next r code

/-- A record: `new`, then each record or array field created and stored, one after the other,
each with its slots above the counter at the start. The loop's invariant: the fields done have
their code after `new`. -/
theorem freshValue_record_creates {fuel : Nat} {t : Ty} {name : String}
    {fields : List (String × Ty)} (resolves : resolveIn cx.env t = .ok (.record name fields))
    (fieldsResolve : ∀ f fty, (f, fty) ∈ fields → ∃ ft, resolveIn cx.env fty = .ok ft)
    (parts : ∀ f fty ft, (f, fty) ∈ fields → resolveIn cx.env fty = .ok ft →
      ft.isAggregate = true → ∀ st, Sat (freshValue cx fuel ft) st
        (fun _ st' => EmitsFresh cx st ft st') (fun _ => False))
    (st : LowerState) :
    Sat (freshValue cx (fuel + 1) t) st (fun _ st' => EmitsFresh cx st (.record name fields) st')
      (fun _ => False) := by
  rw [freshValue]
  simp only [sat_bind, resolve, sat_orFail, resolves, sat_emit]
  refine (sat_forIn (fun done _ st' => st.em.next ≤ st'.em.next ∧ ∃ code,
      st'.em.code.toList = st.em.code.toList ++ .newRecord name :: code ∧
      CreatesFields cx.env st.em.next name done code) ?_
    fun done field rest _ s hxs hI => ?_).mono (fun _ st' h => ?_) fun _ h => h
  · exact ⟨Nat.le_refl _, [], by simp, .nil⟩
  · obtain ⟨f, fty⟩ := field
    obtain ⟨hnext, code, hcode, hfields⟩ := hI
    have mem : (f, fty) ∈ fields := by rw [hxs]; simp
    obtain ⟨ft, hft⟩ := fieldsResolve f fty mem
    simp only [sat_bind, sat_orFail, hft]
    cases hagg : ft.isAggregate with
    | false =>
      -- a scalar field is left as `new` makes it
      exact ⟨_, rfl, hnext, code, hcode, by simpa using hfields.snoc (.scalar (f := f) hft hagg .nil)⟩
    | true =>
      obtain ⟨k, hk⟩ : ∃ k, ValueKind.of cx.env ft = .ok k :=
        ValueKind.of_resolved_ok (resolveIn_resolved hft)
      simp only [↓reduceIte, kind, sat_orFail, hk, sat_bind, sat_emit]
      refine (parts f fty ft mem hft hagg _).mono (fun _ s' h => ?_) fun _ h => h
      obtain ⟨hnext', inner, hinner, hpart⟩ := h
      refine ⟨_, rfl, by simp at hnext' ⊢; omega, code ++ (.dup :: inner ++ [.putField name f k]), ?_,
        hfields.snoc (.aggregate (f := f) hft hagg hk (hpart.mono (by simpa using hnext)) .nil)⟩
      simp [hinner, hcode]
  · obtain ⟨hnext, code, hcode, hfields⟩ := h
    exact ⟨by simpa using hnext, .newRecord name :: code, by simpa using hcode, .record hfields⟩

/-- An array: its size and `newarray`, then, for records or arrays, the index loop whose body
creates one element, with its slots after the index's. -/
theorem freshValue_array_creates {fuel : Nat} {t e : Ty} {n : Int}
    (resolves : resolveIn cx.env t = .ok (.array e n)) (fits : 0 ≤ n ∧ IsWord n)
    (element : e.isAggregate = true → ∀ st, Sat (freshValue cx fuel e) st
      (fun _ st' => EmitsFresh cx st e st') (fun _ => False))
    (st : LowerState) :
    Sat (freshValue cx (fuel + 1) t) st (fun _ st' => EmitsFresh cx st (.array e n) st')
      (fun _ => False) := by
  have resolved : e.Resolved := (Ty.resolved_array e n).mp (resolveIn_resolved resolves)
  obtain ⟨k, hk⟩ := ValueKind.ofResolved_ok resolved
  rw [freshValue]
  simp only [sat_bind, resolve, sat_orFail, resolves, kind, ValueKind.of_resolved resolved, hk,
    sat_emit]
  cases hagg : e.isAggregate with
  | false => exact ⟨Nat.le_refl _, _, by simp, .arrayOfScalars fits hk hagg⟩
  | true =>
    simp only [↓reduceIte, indexLoop, sat_bind, sat_allocate, sat_newLabel, sat_emit,
      slotFor_narrow]
    refine (element hagg _).mono (fun _ s' h => ?_) fun _ h => h
    obtain ⟨hnext, inner, hinner, hpart⟩ := h
    refine ⟨by simp at hnext ⊢; omega, [.push (.int n), .newArray k] ++ IndexLoop.code st.em.next n
      st.labels (st.labels + 1) ([.dup, .load st.em.next .int] ++ inner ++ [.arrayStore k]), ?_,
      .arrayOfAggregates fits hk hagg (Nat.le_refl _) hpart⟩
    simp [hinner, IndexLoop.code]

/-- Lowering a fresh value of a creatable type succeeds and appends code that creates a value
of the type it resolves to. The induction is on how the type is creatable: one level of the
type each. -/
theorem freshValue_creates {fuel : Nat} {t : Ty} (h : Creatable cx.env fuel t) :
    ∀ {r : Ty}, resolveIn cx.env t = .ok r → ∀ st,
      Sat (freshValue cx fuel t) st (fun _ st' => EmitsFresh cx st r st') (fun _ => False) := by
  induction h with
  | @scalar fuel t p resolves notVoid =>
    intro r hr st
    rw [resolves] at hr
    cases hr
    rw [freshValue]
    simp only [sat_bind, resolve, sat_orFail, resolves]
    cases p with
    | integer => exact ⟨Nat.le_refl _, _, by simp, .integer⟩
    | real => exact ⟨Nat.le_refl _, _, by simp, .real⟩
    | boolean => exact ⟨Nat.le_refl _, _, by simp, .boolean⟩
    | string => exact ⟨Nat.le_refl _, _, by simp, .string⟩
    | void => exact absurd rfl notVoid
  | record resolves fieldsResolve _ ih =>
    intro r hr st
    rw [resolves] at hr
    cases hr
    exact freshValue_record_creates cx resolves fieldsResolve
      (fun f fty ft mem hft hagg => ih f fty ft mem hft hagg
        (resolveIn_self (resolveIn_resolved hft))) st
  | array resolves fits _ ih =>
    intro r hr st
    rw [resolves] at hr
    cases hr
    exact freshValue_array_creates cx resolves fits
      (fun hagg => ih hagg (resolveIn_self ((Ty.resolved_array _ _).mp
        (resolveIn_resolved resolves)))) st

end Lowering

end ImpStack
