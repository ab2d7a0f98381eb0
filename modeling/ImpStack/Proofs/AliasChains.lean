import Mathlib.Data.Finset.Card
import Mathlib.Data.Finset.Range
import ImpStack.Proofs.Resolution
import ImpStack.Proofs.Alignment

/-! # Resolution follows alias chains

  Resolving a type follows declared type names from it: a built-in name stands for its scalar
  whatever the environment declares under that name, any other name for its first
  declaration, and the walk stops at a type that is not a name. `AliasChain env t n u` says
  that `t` leads to `u` after `n` lookups.

  The walk looks a name up at most 64 times, and it tests for a type that is not a name, or
  for a built-in name, only before a lookup. So `resolve` succeeds exactly when the chain
  settles after at most 63 lookups (`resolve_eq_ok_iff`); it names the first undeclared name
  it meets within those, and the type itself when 64 lookups do not settle it, whether the
  chain is cyclic or only long (`resolve_eq_error_iff`). A chain of exactly 64 declared aliases
  does not resolve, though each of its 63 shorter tails does
  (`sixty_four_aliases_do_not_resolve`).

  Deep resolution resolves array elements the same way, level after level (`resolveDeep_eq`).
  Its recursion has no bound of its own. It runs out of its depth budget exactly when the chain
  of element types it visits never ends (`resolveDeep_unbounded_iff`): every type the chain
  visits after the first is an array element written in the type or in a declaration, there
  are fewer of those than the budget, so a chain that outlasts the budget comes back to a type
  it passed and goes round forever.
-/

namespace ImpStack

namespace Ty

/-! ## Alias chains -/

/-- `t` leads to `u` after `n` lookups of declared type names; a built-in name is never
looked up. -/
inductive AliasChain (env : TypeEnv) : Ty → Nat → Ty → Prop
  | refl (t : Ty) : AliasChain env t 0 t
  | lookup {name : String} {u v : Ty} {n : Nat} (builtin : Prim.ofName? name = none)
      (found : env.find? name = some u) (rest : AliasChain env u n v) :
      AliasChain env (.named name) (n + 1) v

/-- The type a chain settles on when it reaches `t`: a type that is not a name is itself and a
built-in name is its scalar; any other name goes on to its declaration, or nowhere. -/
def settled? : Ty → Option Ty
  | .named name => (Prim.ofName? name).map .prim
  | t => some t

variable {env : TypeEnv}

theorem aliasChain_of_not_named {t u : Ty} {n : Nat} (ht : ∀ name, t ≠ .named name) :
    AliasChain env t n u ↔ n = 0 ∧ u = t := by
  constructor
  · intro h
    cases h with
    | refl => exact ⟨rfl, rfl⟩
    | lookup => exact absurd rfl (ht _)
  · rintro ⟨rfl, rfl⟩
    exact .refl _

theorem aliasChain_named {name : String} {u : Ty} {n : Nat} :
    AliasChain env (.named name) n u ↔ (n = 0 ∧ u = .named name) ∨
      ∃ m v, n = m + 1 ∧ Prim.ofName? name = none ∧ env.find? name = some v ∧
        AliasChain env v m u := by
  constructor
  · intro h
    cases h with
    | refl => exact .inl ⟨rfl, rfl⟩
    | lookup builtin found rest => exact .inr ⟨_, _, rfl, builtin, found, rest⟩
  · rintro (⟨rfl, rfl⟩ | ⟨m, v, rfl, builtin, found, rest⟩)
    · exact .refl _
    · exact .lookup builtin found rest

/-! ## What `resolve` returns -/

/-- Following names with `k` lookups to spare gives a type exactly when the chain settles
before the lookups run out. The induction is on `k`; a declared name passes to its
declaration with one lookup fewer. -/
theorem resolveFrom_eq_ok_iff {o t r : Ty} {k : Nat} :
    resolveFrom env o t k = .ok r ↔
      ∃ n u, n < k ∧ AliasChain env t n u ∧ u.settled? = some r := by
  induction k generalizing t with
  | zero => simp [resolveFrom]
  | succ k ih =>
    cases t with
    | named name =>
      cases hb : Prim.ofName? name with
      | some p =>
        -- a built-in name settles at once and is never looked up
        simp only [resolveFrom, hb, Except.ok.injEq]
        constructor
        · rintro rfl
          exact ⟨0, _, by omega, .refl _, by simp [settled?, hb]⟩
        · rintro ⟨n, u, -, hc, hs⟩
          rcases aliasChain_named.mp hc with ⟨-, rfl⟩ | ⟨m, v, -, hb', -, -⟩
          · simpa [settled?, hb] using hs
          · rw [hb] at hb'; cases hb'
      | none =>
        cases hf : env.find? name with
        | none =>
          -- an undeclared name does not settle
          simp only [resolveFrom, hb, hf, reduceCtorEq, false_iff]
          rintro ⟨n, u, -, hc, hs⟩
          rcases aliasChain_named.mp hc with ⟨-, rfl⟩ | ⟨m, v, -, -, hv, -⟩
          · simp [settled?, hb] at hs
          · rw [hf] at hv; cases hv
        | some v =>
          -- a declared name: the chain goes on from its declaration, one lookup fewer
          simp only [resolveFrom, hb, hf]
          rw [ih]
          constructor
          · rintro ⟨n, u, hn, hc, hs⟩
            exact ⟨n + 1, u, by omega, .lookup hb hf hc, hs⟩
          · rintro ⟨n, u, hn, hc, hs⟩
            rcases aliasChain_named.mp hc with ⟨-, rfl⟩ | ⟨m, v', rfl, -, hv, hc'⟩
            · simp [settled?, hb] at hs
            · rw [hf] at hv; cases hv
              exact ⟨m, u, by omega, hc', hs⟩
    | _ =>
      -- a type that is no name settles at once, on itself
      simp only [resolveFrom, Except.ok.injEq]
      constructor
      · rintro rfl
        exact ⟨0, _, by omega, .refl _, rfl⟩
      · rintro ⟨n, u, -, hc, hs⟩
        obtain ⟨-, rfl⟩ := (aliasChain_of_not_named (fun _ h => by cases h)).mp hc
        simpa [settled?] using hs

/-- Following names fails exactly when it meets an undeclared name, which it names, or when
`k` lookups do not settle the chain, when it names the type it started from. -/
theorem resolveFrom_eq_error_iff {o t : Ty} {k : Nat} {e : Error} :
    resolveFrom env o t k = .error e ↔
      (∃ n name, n < k ∧ AliasChain env t n (.named name) ∧ Prim.ofName? name = none ∧
        env.find? name = none ∧ e = .undefinedType name) ∨
      ((∃ u, AliasChain env t k u) ∧ e = .undefinedType o.display) := by
  induction k generalizing t with
  | zero =>
    simp only [resolveFrom, Except.error.injEq]
    constructor
    · rintro rfl
      exact .inr ⟨⟨t, .refl t⟩, rfl⟩
    · rintro (⟨n, _, hn, -⟩ | ⟨-, rfl⟩)
      · omega
      · rfl
  | succ k ih =>
    cases t with
    | named name =>
      cases hb : Prim.ofName? name with
      | some p =>
        -- a built-in name settles: it is neither undeclared nor looked up
        simp only [resolveFrom, hb, reduceCtorEq, false_iff]
        rintro (⟨n, name', -, hc, hb', -, -⟩ | ⟨⟨u, hc⟩, -⟩)
        · rcases aliasChain_named.mp hc with ⟨-, h⟩ | ⟨m, v, -, hb'', -, -⟩
          · cases h; rw [hb] at hb'; cases hb'
          · rw [hb] at hb''; cases hb''
        · rcases aliasChain_named.mp hc with ⟨h, -⟩ | ⟨m, v, -, hb'', -, -⟩
          · omega
          · rw [hb] at hb''; cases hb''
      | none =>
        cases hf : env.find? name with
        | none =>
          -- an undeclared name: the error names it
          simp only [resolveFrom, hb, hf, Except.error.injEq]
          constructor
          · rintro rfl
            exact .inl ⟨0, name, by omega, .refl _, hb, hf, rfl⟩
          · rintro (⟨n, name', -, hc, -, -, rfl⟩ | ⟨⟨u, hc⟩, -⟩)
            · rcases aliasChain_named.mp hc with ⟨-, h⟩ | ⟨m, v, -, -, hv, -⟩
              · cases h; rfl
              · rw [hf] at hv; cases hv
            · rcases aliasChain_named.mp hc with ⟨h, -⟩ | ⟨m, v, -, -, hv, -⟩
              · omega
              · rw [hf] at hv; cases hv
        | some v =>
          -- a declared name: the chain goes on from its declaration, one lookup fewer
          simp only [resolveFrom, hb, hf]
          rw [ih]
          constructor
          · rintro (⟨n, name', hn, hc, hb', hf', rfl⟩ | ⟨⟨u, hc⟩, rfl⟩)
            · exact .inl ⟨n + 1, name', by omega, .lookup hb hf hc, hb', hf', rfl⟩
            · exact .inr ⟨⟨u, .lookup hb hf hc⟩, rfl⟩
          · rintro (⟨n, name', hn, hc, hb', hf', rfl⟩ | ⟨⟨u, hc⟩, rfl⟩)
            · rcases aliasChain_named.mp hc with ⟨-, h⟩ | ⟨m, v', rfl, -, hv, hc'⟩
              · cases h; rw [hf] at hf'; cases hf'
              · rw [hf] at hv; cases hv
                exact .inl ⟨m, name', by omega, hc', hb', hf', rfl⟩
            · rcases aliasChain_named.mp hc with ⟨h, -⟩ | ⟨m, v', hm, -, hv, hc'⟩
              · omega
              · rw [hf] at hv; cases hv
                cases Nat.succ.inj hm
                exact .inr ⟨⟨u, hc'⟩, rfl⟩
    | _ =>
      -- a type that is no name settles at once
      simp only [resolveFrom, reduceCtorEq, false_iff]
      rintro (⟨n, name', -, hc, -⟩ | ⟨⟨u, hc⟩, -⟩)
      · obtain ⟨-, h⟩ := (aliasChain_of_not_named (fun _ h => by cases h)).mp hc
        cases h
      · obtain ⟨h, -⟩ := (aliasChain_of_not_named (fun _ h => by cases h)).mp hc
        omega

/-- Resolution gives a type exactly when following names from `t` settles within 63 lookups;
the type is where the chain settles. -/
theorem resolve_eq_ok_iff {t r : Ty} :
    t.resolve env = .ok r ↔ ∃ n u, n < 64 ∧ AliasChain env t n u ∧ u.settled? = some r :=
  resolveFrom_eq_ok_iff

/-- Resolution fails by naming the first undeclared name its chain meets within 63 lookups,
or by naming `t` itself when 64 lookups do not settle the chain. -/
theorem resolve_eq_error_iff {t : Ty} {e : Error} :
    t.resolve env = .error e ↔
      (∃ n name, n < 64 ∧ AliasChain env t n (.named name) ∧ Prim.ofName? name = none ∧
        env.find? name = none ∧ e = .undefinedType name) ∨
      ((∃ u, AliasChain env t 64 u) ∧ e = .undefinedType t.display) :=
  resolveFrom_eq_error_iff

/-- Resolution has no failure but an undefined type. -/
theorem resolve_error_undefined {t : Ty} {e : Error} (h : t.resolve env = .error e) :
    ∃ name, e = .undefinedType name := by
  rcases resolve_eq_error_iff.mp h with ⟨_, name, -, -, -, -, rfl⟩ | ⟨-, rfl⟩
  · exact ⟨name, rfl⟩
  · exact ⟨_, rfl⟩

/-- What resolution gives is no type name, and is the type itself or a declared type or a
scalar. -/
theorem resolveFrom_ok_source {o t r : Ty} {k : Nat} (h : resolveFrom env o t k = .ok r) :
    r = t ∨ (∃ p, r = .prim p) ∨ ∃ name, (name, r) ∈ env := by
  induction k generalizing t with
  | zero => simp [resolveFrom] at h
  | succ k ih =>
    cases t with
    | named name =>
      simp only [resolveFrom] at h
      split at h
      · cases h
        exact .inr (.inl ⟨_, rfl⟩)
      · split at h
        · next v hv =>
          rcases ih h with rfl | hp | hd
          · exact .inr (.inr ⟨name, mem_of_lookup hv⟩)
          · exact .inr (.inl hp)
          · exact .inr (.inr hd)
        · cases h
    | _ => cases h; exact .inl rfl

/-! ## The levels of deep resolution -/

/-- One level of deep resolution: it resolves `t`, and goes on with the elements when that
gives an array. -/
theorem resolveDeepFrom_succ (t : Ty) (k : Nat) :
    resolveDeepFrom env t (k + 1) =
      match t.resolve env with
      | .ok (.array e n) => (fun r => .array r n) <$> resolveDeepFrom env e k
      | r => r := by
  simp only [resolveDeepFrom, bind, Except.bind]
  cases t.resolve env with
  | error e => rfl
  | ok r =>
    cases r with
    | array e n =>
      simp only [Functor.map, Except.map, pure, Except.pure]
    | _ => rfl

/-- The element type deep resolution goes on with after `t`, when `t` resolves to an array. -/
def elementStep (env : TypeEnv) (t : Ty) : Option Ty :=
  match t.resolve env with
  | .ok (.array e _) => some e
  | _ => none

/-- The types deep resolution visits from `t`, level by level: `t`, then the elements of each
array a level resolves to. -/
def elementChain (env : TypeEnv) (t : Ty) : Nat → Option Ty
  | 0 => some t
  | i + 1 => (elementChain env t i).bind (elementStep env)

theorem elementStep_eq_some {t e : Ty} : elementStep env t = some e ↔
    ∃ n, t.resolve env = .ok (.array e n) := by
  unfold elementStep
  split
  · next e' n h => simp [h]
  · next h => simpa using fun n => h e n

/-- The chain from `t` goes on as the chain from the elements `t` resolves to. -/
theorem elementChain_succ_of_step {t e : Ty} (h : elementStep env t = some e) (i : Nat) :
    elementChain env t (i + 1) = elementChain env e i := by
  induction i with
  | zero => simp [elementChain, h]
  | succ i ih => rw [elementChain, ih, elementChain]

/-- The strict constructors below an array type, element by element. -/
def spine : Ty → List Ty
  | .array e _ => e :: spine e
  | _ => []

/-- Every type that deep resolution can visit after `t`: the array elements written in `t`
and in the declarations. -/
def elementUniverse (env : TypeEnv) (t : Ty) : List Ty :=
  spine t ++ env.flatMap fun d => spine d.2

theorem length_spine_lt (t : Ty) : (spine t).length < t.size := by
  -- the spine goes down array elements only, so the induction is on the size
  induction hs : t.size using Nat.strong_induction_on generalizing t with
  | _ n ih =>
    cases t with
    | array e k =>
      have := ih e.size (by simp only [size] at hs; omega) e rfl
      simp only [spine, size, List.length_cons] at hs ⊢
      omega
    | record name fs => simp [spine, ← hs, size]
    | prim _ | named _ => simp [spine, ← hs, size]

theorem length_spines_le : ∀ env : TypeEnv, (env.flatMap fun d => spine d.2).length ≤ env.size
  | [] => by simp
  | (_, t) :: rest => by
    have := length_spine_lt t
    have := length_spines_le rest
    simp only [List.flatMap_cons, List.length_append, TypeEnv.size]
    omega

theorem length_elementUniverse_lt (t : Ty) :
    (elementUniverse env t).length < depthBudget env t := by
  have := length_spine_lt t
  have := length_spines_le env
  simp only [elementUniverse, List.length_append, depthBudget]
  omega

/-- The spine is closed under taking elements. -/
theorem mem_spine_of_array {t e : Ty} {n : Int} (h : Ty.array e n ∈ spine t) : e ∈ spine t := by
  induction hs : t.size using Nat.strong_induction_on generalizing t with
  | _ m ih =>
    cases t with
    | array e' n' =>
      simp only [spine, List.mem_cons] at h ⊢
      rcases h with h | h
      · cases h
        exact .inr (by simp [spine])
      · exact .inr (ih e'.size (by simp only [size] at hs; omega) h rfl)
    | _ => simp [spine] at h

/-- One level goes from the universe, or from `t` itself, into the universe. -/
theorem elementStep_mem {t x e : Ty} (hx : x = t ∨ x ∈ elementUniverse env t)
    (h : elementStep env x = some e) : e ∈ elementUniverse env t := by
  obtain ⟨n, hr⟩ := elementStep_eq_some.mp h
  simp only [elementUniverse, List.mem_append, List.mem_flatMap]
  rcases resolveFrom_ok_source hr with hsame | ⟨p, hp⟩ | ⟨name, hd⟩
  · -- `x` is the array itself: its elements are on the spine it lies on
    subst hsame
    rcases hx with rfl | hx
    · exact .inl (by simp [spine])
    · simp only [elementUniverse, List.mem_append, List.mem_flatMap] at hx
      rcases hx with hx | ⟨d, hd, hx⟩
      · exact .inl (mem_spine_of_array hx)
      · exact .inr ⟨d, hd, mem_spine_of_array hx⟩
  · cases hp
  · exact .inr ⟨(name, .array e n), hd, by simp [spine]⟩

theorem elementChain_mem {t x : Ty} {i : Nat} (h : elementChain env t (i + 1) = some x) :
    x ∈ elementUniverse env t := by
  induction i generalizing x with
  | zero => exact elementStep_mem (.inl rfl) (by simpa [elementChain] using h)
  | succ i ih =>
    rw [elementChain] at h
    obtain ⟨y, hy, hs⟩ := Option.bind_eq_some_iff.mp h
    exact elementStep_mem (.inr (ih hy)) hs

/-- A chain that visits a type twice goes round forever. The chain `d` levels after the first
visit is the chain `d` levels after the second; so every level past the second visit is an
earlier one. -/
theorem elementChain_forever {t : Ty} {i j : Nat} (hij : i < j)
    (hsame : elementChain env t i = elementChain env t j)
    (hupto : ∀ m ≤ j, (elementChain env t m).isSome) :
    ∀ m, (elementChain env t m).isSome := by
  have shift : ∀ d, elementChain env t (i + d) = elementChain env t (j + d) := by
    intro d
    induction d with
    | zero => exact hsame
    | succ d ih => rw [← Nat.add_assoc, ← Nat.add_assoc, elementChain, elementChain, ih]
  intro m
  induction m using Nat.strong_induction_on with
  | _ m ih =>
    by_cases hm : m ≤ j
    · exact hupto m hm
    · obtain ⟨d, rfl⟩ := Nat.exists_eq_add_of_le (Nat.le_of_not_le hm)
      rw [← shift d]
      exact ih (i + d) (by omega)

/-- A chain that outlasts the depth budget never ends: its levels after the first lie in the
universe, which has fewer types than the budget, so two of them coincide. -/
theorem elementChain_forever_of_budget {t : Ty}
    (h : ∀ m ≤ depthBudget env t, (elementChain env t m).isSome) :
    ∀ m, (elementChain env t m).isSome := by
  classical
  -- the pigeonhole, over the levels 1 to the budget
  have fewer : ((elementUniverse env t).map some).toFinset.card <
      (Finset.range (depthBudget env t)).card :=
    calc ((elementUniverse env t).map some).toFinset.card
        ≤ ((elementUniverse env t).map some).length := List.toFinset_card_le _
      _ = (elementUniverse env t).length := List.length_map _
      _ < depthBudget env t := length_elementUniverse_lt t
      _ = (Finset.range (depthBudget env t)).card := (Finset.card_range _).symm
  have into : ∀ i ∈ Finset.range (depthBudget env t),
      elementChain env t (i + 1) ∈ ((elementUniverse env t).map some).toFinset := by
    intro i hi
    obtain ⟨x, hx⟩ := Option.isSome_iff_exists.mp (h (i + 1) (Finset.mem_range.mp hi))
    rw [hx]
    simpa using elementChain_mem hx
  obtain ⟨i, hi, j, hj, hne, hsame⟩ := Finset.exists_ne_map_eq_of_card_lt_of_maps_to fewer into
  have hi' := Finset.mem_range.mp hi
  have hj' := Finset.mem_range.mp hj
  rcases Nat.lt_or_gt_of_ne hne with hlt | hlt
  · exact elementChain_forever (by omega) hsame fun m hm => h m (by omega)
  · exact elementChain_forever (by omega) hsame.symm fun m hm => h m (by omega)

/-- The error deep resolution stops with when it runs out of depth. -/
def deepUnbounded : Error :=
  .unboundedRecursion "deep resolution of an array type that contains itself"

theorem resolveDeepFrom_zero (t : Ty) : resolveDeepFrom env t 0 = .error deepUnbounded := rfl

/-- Running out of depth after `k` levels means the chain has `k` levels past `t`. -/
theorem elementChain_of_unbounded {t : Ty} {k : Nat}
    (h : resolveDeepFrom env t k = .error deepUnbounded) :
    ∀ m ≤ k, (elementChain env t m).isSome := by
  induction k generalizing t with
  | zero => intro m hm; simp [Nat.le_zero.mp hm, elementChain]
  | succ k ih =>
    rw [resolveDeepFrom_succ] at h
    cases hr : t.resolve env with
    | error err =>
      -- resolution fails with an undefined type, never by running out
      rw [hr] at h
      obtain ⟨name, rfl⟩ := resolve_error_undefined hr
      cases h
    | ok r =>
      rw [hr] at h
      cases r with
      | array e n =>
        have hstep : elementStep env t = some e := elementStep_eq_some.mpr ⟨n, hr⟩
        cases he : resolveDeepFrom env e k with
        | ok r => simp [he, Functor.map, Except.map] at h
        | error err =>
          simp only [he, Functor.map, Except.map, Except.error.injEq] at h
          subst h
          intro m hm
          cases m with
          | zero => simp [elementChain]
          | succ m => rw [elementChain_succ_of_step hstep]; exact ih he m (by omega)
      | _ => cases h

/-- A chain that never ends runs out of every depth. -/
theorem unbounded_of_elementChain {t : Ty} (h : ∀ m, (elementChain env t m).isSome) (k : Nat) :
    resolveDeepFrom env t k = .error deepUnbounded := by
  induction k generalizing t with
  | zero => rfl
  | succ k ih =>
    obtain ⟨e, he⟩ := Option.isSome_iff_exists.mp (h 1)
    have hstep : elementStep env t = some e := by simpa [elementChain] using he
    obtain ⟨n, hr⟩ := elementStep_eq_some.mp hstep
    rw [resolveDeepFrom_succ, hr]
    have hrest := ih (t := e) fun m => by rw [← elementChain_succ_of_step hstep]; exact h (m + 1)
    simp [hrest, Functor.map, Except.map]

/-- More depth does not change a deep resolution that did not run out. -/
theorem resolveDeepFrom_add {t : Ty} {k : Nat} (h : resolveDeepFrom env t k ≠ .error deepUnbounded)
    (j : Nat) : resolveDeepFrom env t (k + j) = resolveDeepFrom env t k := by
  induction k generalizing t with
  | zero => exact absurd rfl h
  | succ k ih =>
    rw [Nat.add_right_comm, resolveDeepFrom_succ, resolveDeepFrom_succ]
    rw [resolveDeepFrom_succ] at h
    split
    · next e n hr =>
      simp only [hr] at h
      have he : resolveDeepFrom env e k ≠ .error deepUnbounded := by
        intro he
        simp [he, Functor.map, Except.map] at h
      rw [ih he]
    · rfl

/-- A depth is enough for `t` when it does not run out, or when nothing would be. -/
theorem resolveDeepFrom_eq_of_enough {t : Ty} {k k' : Nat}
    (hk : resolveDeepFrom env t k = .error deepUnbounded → ∀ m, (elementChain env t m).isSome)
    (hk' : resolveDeepFrom env t k' = .error deepUnbounded → ∀ m, (elementChain env t m).isSome) :
    resolveDeepFrom env t k = resolveDeepFrom env t k' := by
  by_cases h : resolveDeepFrom env t k = .error deepUnbounded
  · rw [h, unbounded_of_elementChain (hk h) k']
  · by_cases h' : resolveDeepFrom env t k' = .error deepUnbounded
    · rw [h', unbounded_of_elementChain (hk' h') k]
    · rw [← resolveDeepFrom_add h k', ← resolveDeepFrom_add h' k, Nat.add_comm]

/-- The depth budget of `t` is enough for `t`. -/
theorem budget_enough {t : Ty} (h : t.resolveDeep env = .error deepUnbounded) :
    ∀ m, (elementChain env t m).isSome :=
  elementChain_forever_of_budget (elementChain_of_unbounded h)

/-! ## What `resolveDeep` returns -/

/-- Deep resolution resolves `t` and, when that gives an array, resolves its elements the
same way. The budget of `t` less one level is enough for the elements: were it not, the chain
from `t` would outlast the budget of `t` and so never end. -/
theorem resolveDeep_eq (t : Ty) :
    t.resolveDeep env =
      match t.resolve env with
      | .ok (.array e n) => (fun r => .array r n) <$> e.resolveDeep env
      | r => r := by
  obtain ⟨k, hk⟩ : ∃ k, depthBudget env t = k + 1 := ⟨t.size - 1 + env.size, by
    have := length_spine_lt t
    simp only [depthBudget]; omega⟩
  have unfold_t : t.resolveDeep env = _ := (congrArg (resolveDeepFrom env t) hk).trans
    (resolveDeepFrom_succ t k)
  rw [unfold_t]
  split
  · next e n hr =>
    have hstep : elementStep env t = some e := elementStep_eq_some.mpr ⟨n, hr⟩
    have enough : resolveDeepFrom env e k = e.resolveDeep env := by
      refine resolveDeepFrom_eq_of_enough (fun he m => ?_) fun he => budget_enough he
      -- the elements running out at `k` means `t` runs out at its own budget
      have ht : t.resolveDeep env = .error deepUnbounded := by
        rw [unfold_t, hr]
        simp [he, Functor.map, Except.map]
      rw [← elementChain_succ_of_step hstep]
      exact budget_enough ht (m + 1)
    rw [enough]
  · rfl

/-- Deep resolution runs out of depth exactly when the chain of element types it visits
never ends. -/
theorem resolveDeep_unbounded_iff {t : Ty} :
    t.resolveDeep env = .error deepUnbounded ↔ ∀ m, (elementChain env t m).isSome :=
  ⟨budget_enough, fun h => unbounded_of_elementChain h _⟩

end Ty

open Ty

/-- What resolution does, for every environment, cyclic or not, and every type. `resolve`
gives the type the alias chain of `t` settles on within 63 lookups; otherwise it fails, naming
the first undeclared name of the chain or, when 64 lookups do not settle it, `t` itself.
Deep resolution resolves level by level along the array elements, runs out of depth exactly
when that chain of element types never ends, and gives a resolved type that resolves to
itself again. -/
theorem resolution_follows_alias_chains (env : TypeEnv) (t : Ty) :
    (∀ r, t.resolve env = .ok r ↔ ∃ n u, n < 64 ∧ AliasChain env t n u ∧ u.settled? = some r) ∧
    (∀ e, t.resolve env = .error e ↔
      (∃ n name, n < 64 ∧ AliasChain env t n (.named name) ∧ Prim.ofName? name = none ∧
        env.find? name = none ∧ e = .undefinedType name) ∨
      ((∃ u, AliasChain env t 64 u) ∧ e = .undefinedType t.display)) ∧
    t.resolveDeep env =
      (match t.resolve env with
        | .ok (.array e n) => (fun r => .array r n) <$> e.resolveDeep env
        | r => r) ∧
    (t.resolveDeep env = .error deepUnbounded ↔ ∀ m, (elementChain env t m).isSome) ∧
    (∀ r, t.resolveDeep env = .ok r → r.Resolved ∧ r.resolveDeep env = .ok r) :=
  ⟨fun _ => resolve_eq_ok_iff, fun _ => resolve_eq_error_iff, resolveDeep_eq t,
    resolveDeep_unbounded_iff, fun _ h =>
      ⟨resolveDeep_resolved h, resolveDeep_of_resolved (resolveDeep_resolved h)⟩⟩

/-- A chain of 64 declared aliases ending in `integer`. -/
def sixtyFourAliases : TypeEnv :=
  (List.range 64).map fun i =>
    ("A" ++ toString i, if i < 63 then .named ("A" ++ toString (i + 1)) else .integer)

/-- Sixty-four declared aliases in a row do not resolve: `A0` stands for `A1`, and `A1`
resolves to `integer` in 63 lookups, but `A0` needs a 64th and fails, naming itself. -/
theorem sixty_four_aliases_do_not_resolve :
    sixtyFourAliases.find? "A0" = some (.named "A1") ∧
    (Ty.named "A1").resolve sixtyFourAliases = .ok .integer ∧
    (Ty.named "A0").resolve sixtyFourAliases = .error (.undefinedType "A0") := by
  refine ⟨rfl, rfl, rfl⟩

end ImpStack
