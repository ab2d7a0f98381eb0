import Mathlib.Logic.Function.Basic
import ImpStack.Check.Operations
import ImpStack.Proofs.Judgment

/-! # The scopes as a stack of maps

  A client of the scopes sees them only through a sequence of operations: entering and
  leaving scopes, declaring variables, routines and types, clearing everything, and asking
  about names. This module states what those answers should be with a model that has no
  association lists in it (`ScopeMaps`): variables live in a non-empty stack of maps, innermost
  first; routines and types are maps where the first definition of a name wins, and the five
  built-in type names count as types without being stored.

  `Scopes.maps` reads a `Scopes` as such a model, and every operation commutes with it
  (`Scopes.perform_maps`), so any sequence of operations gets the model's answers
  (`scopes_follow_maps`). From the model then follow the two laws a client relies on: the
  global scope is never left, and a bracket `enter … exit` whose inner operations never close
  the bracket's own scope leaves every variable query answering as it did before
  (`ScopeMaps.bracket_frames`).
-/

namespace ImpStack

/-- Whether an operation asks about variables. -/
def TableOp.asksVariable : TableOp → Bool
  | .isDefined _ | .isDefinedInCurrentScope _ | .getType _ | .globalType _ => true
  | _ => false

/-- Whether an operation can change the stack of scopes. -/
def TableOp.movesScopes : TableOp → Bool
  | .enterScope | .exitScope | .clear | .declareVariable _ _ => true
  | _ => false

section Runs

variable {σ : Type} (step : TableOp → σ → TableAnswer × σ)

/-- The state after a sequence of operations. -/
def afterOps : List TableOp → σ → σ
  | [], s => s
  | op :: ops, s => afterOps ops (step op s).2

/-- The answers to a sequence of operations, in order. -/
def answersOf : List TableOp → σ → List TableAnswer
  | [], _ => []
  | op :: ops, s => (step op s).1 :: answersOf ops (step op s).2

/-- The states a sequence of operations passes through, each after its operation. -/
def statesOf : List TableOp → σ → List σ
  | [], _ => []
  | op :: ops, s => (step op s).2 :: statesOf ops (step op s).2

theorem afterOps_append (ops ops' : List TableOp) (s : σ) :
    afterOps step (ops ++ ops') s = afterOps step ops' (afterOps step ops s) := by
  induction ops generalizing s with
  | nil => rfl
  | cons op ops ih => exact ih _

end Runs

section Simulation

variable {σ τ : Type} {step : TableOp → σ → TableAnswer × σ} {spec : TableOp → τ → TableAnswer × τ}
  {view : σ → τ}

/-- A view that every operation commutes with: the answer is the one given on the view, and
the view of the next state is the next state of the view. -/
def Commutes (step : TableOp → σ → TableAnswer × σ) (spec : TableOp → τ → TableAnswer × τ)
    (view : σ → τ) : Prop :=
  ∀ op s, (step op s).1 = (spec op (view s)).1 ∧ view (step op s).2 = (spec op (view s)).2

theorem Commutes.afterOps (h : Commutes step spec view) :
    ∀ (ops : List TableOp) (s : σ), view (afterOps step ops s) = afterOps spec ops (view s) := by
  intro ops
  induction ops with
  | nil => intro s; rfl
  | cons op ops ih =>
    intro s
    simp only [ImpStack.afterOps, ih, (h op s).2]

theorem Commutes.answersOf (h : Commutes step spec view) :
    ∀ (ops : List TableOp) (s : σ), answersOf step ops s = answersOf spec ops (view s) := by
  intro ops
  induction ops with
  | nil => intro s; rfl
  | cons op ops ih =>
    intro s
    simp only [ImpStack.answersOf, ih, (h op s).1, (h op s).2]

theorem Commutes.statesOf (h : Commutes step spec view) :
    ∀ (ops : List TableOp) (s : σ), (statesOf step ops s).map view = statesOf spec ops (view s) := by
  intro ops
  induction ops with
  | nil => intro s; rfl
  | cons op ops ih =>
    intro s
    simp only [ImpStack.statesOf, List.map_cons, ih, (h op s).2]

end Simulation

/-! ## The model -/

/-- Variables in a non-empty stack of maps, innermost first, the last being the global scope;
routines and declared types in maps. -/
structure ScopeMaps where
  frames : List (String → Option Ty)
  nonempty : frames ≠ []
  routines : String → Option RoutineSig
  types : String → Option Ty

namespace ScopeMaps

/-- Two models are equal when their maps are. -/
@[ext] theorem ext {t u : ScopeMaps} (hf : t.frames = u.frames) (hr : t.routines = u.routines)
    (ht : t.types = u.types) : t = u := by
  cases t
  cases u
  simp_all

/-- One empty global scope, no routine and no declared type. -/
def init : ScopeMaps := ⟨[fun _ => none], List.cons_ne_nil _ _, fun _ => none, fun _ => none⟩

/-- The innermost scope. -/
def top (t : ScopeMaps) : String → Option Ty := t.frames.head t.nonempty

/-- Pushes an empty scope. -/
def enter (t : ScopeMaps) : ScopeMaps :=
  { t with frames := (fun _ => none) :: t.frames, nonempty := List.cons_ne_nil _ _ }

/-- Pops the innermost scope when another one remains. -/
def exit (t : ScopeMaps) : ScopeMaps :=
  if h : 1 < t.frames.length then
    { t with frames := t.frames.tail,
             nonempty := List.ne_nil_of_length_pos (by rw [List.length_tail]; omega) }
  else t

/-- Sets a variable in the innermost scope. -/
def declare (t : ScopeMaps) (name : String) (ty : Ty) : ScopeMaps :=
  { t with frames := Function.update t.top name (some ty) :: t.frames.tail,
           nonempty := List.cons_ne_nil _ _ }

/-- Whether a type name is built in or declared. -/
def isType (t : ScopeMaps) (name : String) : Bool := isBuiltinName name || (t.types name).isSome

/-- What an operation does to the model. -/
def perform : TableOp → ScopeMaps → TableAnswer × ScopeMaps
  | .enterScope, t => (.done, t.enter)
  | .exitScope, t => (.done, t.exit)
  | .clear, _ => (.done, init)
  | .declareVariable n ty, t => (.done, t.declare n ty)
  | .declareRoutine n sig, t =>
    if (t.routines n).isSome then (.flag false, t)
    else (.flag true, { t with routines := Function.update t.routines n (some sig) })
  | .defineType n ty, t =>
    if t.isType n then (.flag false, t)
    else (.flag true, { t with types := Function.update t.types n (some ty) })
  | .isDefined n, t => (.flag (t.frames.any fun m => (m n).isSome), t)
  | .isDefinedInCurrentScope n, t => (.flag (t.top n).isSome, t)
  | .getType n, t => (.type (t.frames.findSome? fun m => m n), t)
  | .globalType n, t => (.type (t.frames.getLast t.nonempty n), t)
  | .getRoutine n, t => (.routine (t.routines n), t)
  | .isTypeDefined n, t => (.flag (t.isType n), t)
  | .isBuiltinType n, t => (.flag (isBuiltinName n), t)
  | .getTypeDefinition n, t => (.type (t.types n), t)
  | .scopeDepth, t => (.depth t.frames.length, t)

/-- A question about variables is answered from the stack of scopes alone, and leaves the
model as it is. -/
theorem perform_asksVariable {q : TableOp} (hq : q.asksVariable = true) {t u : ScopeMaps}
    (h : t.frames = u.frames) : (perform q t).1 = (perform q u).1 ∧ (perform q t).2 = t := by
  obtain ⟨frames, nonempty, routines, types⟩ := t
  obtain ⟨frames', nonempty', routines', types'⟩ := u
  subst h
  cases q <;> simp_all [TableOp.asksVariable, perform, top]

end ScopeMaps

/-! ## Reading the scopes as the model -/

/-- A scope declares a name exactly when a lookup of it finds something. -/
theorem Frame.declares_eq (f : Frame) (n : String) : f.declares n = (f.lookup n).isSome := by
  induction f with
  | nil => rfl
  | cons e f ih =>
    obtain ⟨k, T⟩ := e
    simp only [Frame.declares, List.any_cons, lookup_cons_ite] at ih ⊢
    by_cases h : n = k
    · subst h; simp
    · simp [h, Ne.symm h, ih]

theorem lookup_eq_none_iff_any {β : Type} (xs : List (String × β)) (n : String) :
    xs.lookup n = none ↔ xs.any (·.1 == n) = false := by
  induction xs with
  | nil => simp
  | cons e xs ih =>
    obtain ⟨k, b⟩ := e
    by_cases h : n = k
    · subst h; simp
    · simp [lookup_cons_ite, h, Ne.symm h, ih]

/-- Adding a name that is not there yet updates the map the list stands for. -/
theorem lookup_append_fresh_update {β : Type} {xs : List (String × β)} {n : String}
    (h : xs.lookup n = none) (b : β) :
    (fun m => (xs ++ [(n, b)]).lookup m) = Function.update (fun m => xs.lookup m) n (some b) := by
  funext m
  rw [lookup_append_fresh xs n m b ((lookup_eq_none_iff_any xs n).1 h), Function.update_apply]

namespace Scopes

/-- The scopes as a stack of maps. -/
def maps (s : Scopes) : ScopeMaps where
  frames := s.frames.map fun f n => f.lookup n
  nonempty := by simp [frames]
  routines := fun n => s.routines.lookup n
  types := fun n => s.types.lookup n

variable (s : Scopes) (n : String)

theorem maps_empty : empty.maps = ScopeMaps.init := by
  ext1
  · simp [maps, ScopeMaps.init, frames, empty]
  · rfl
  · rfl

theorem maps_enter : s.enter.maps = s.maps.enter := by
  ext1
  · simp [maps, ScopeMaps.enter, frames, enter]
  · rfl
  · rfl

theorem maps_exit : s.exit.maps = s.maps.exit := by
  unfold ScopeMaps.exit
  obtain ⟨g, ls, rs, ts⟩ := s
  cases ls with
  | nil => simp [maps, frames, exit]
  | cons f ls =>
    simp only [maps, frames, exit, List.cons_append, List.map_cons, List.length_cons,
      List.length_map, List.length_append, List.drop_one, List.tail_cons]
    rw [dif_pos (by omega)]

theorem maps_declare (ty : Ty) : (s.declare n ty).maps = s.maps.declare n ty := by
  have hset : ∀ f : Frame, (fun m => (f.set n ty).lookup m) =
      Function.update (fun m => f.lookup m) n (some ty) := by
    intro f
    funext m
    rw [Frame.lookup_set, Function.update_apply]
  obtain ⟨g, ls, rs, ts⟩ := s
  cases ls with
  | nil =>
    ext1 <;> simp only [maps, frames, declare, ScopeMaps.declare, ScopeMaps.top, List.nil_append,
      List.map_cons, List.map_nil, List.head_cons, List.tail_cons, hset]
  | cons f ls =>
    ext1 <;> simp only [maps, frames, declare, ScopeMaps.declare, ScopeMaps.top, List.cons_append,
      List.map_cons, List.head_cons, List.tail_cons, hset]

theorem isDefined_maps : s.isDefined n = s.maps.frames.any fun m => (m n).isSome := by
  simp [isDefined, maps, List.any_map, Function.comp_def, Frame.declares_eq]

theorem isDefinedHere_maps : s.isDefinedHere n = (s.maps.top n).isSome := by
  have htop : s.maps.top = (s.frames.map fun f n => f.lookup n).head (by simp [frames]) := rfl
  rw [htop, List.head_map]
  obtain ⟨g, ls, rs, ts⟩ := s
  cases ls <;> simp [isDefinedHere, frames, Frame.declares_eq]

theorem typeOf?_maps : s.typeOf? n = s.maps.frames.findSome? fun m => m n := by
  simp [typeOf?, maps, List.findSome?_map, Function.comp_def]

theorem globalType?_maps : s.globalType? n = s.maps.frames.getLast s.maps.nonempty n := by
  have hlast : s.maps.frames.getLast s.maps.nonempty =
      (s.frames.map fun f n => f.lookup n).getLast (by simp [frames]) := rfl
  rw [hlast, List.getLast_map]
  simp [globalType?, frames]

theorem depth_maps : s.depth = s.maps.frames.length := by
  simp [depth, maps, frames]

theorem perform_declareRoutine (sig : RoutineSig) :
    (s.perform (.declareRoutine n sig)).1 = (s.maps.perform (.declareRoutine n sig)).1 ∧
      (s.perform (.declareRoutine n sig)).2.maps = (s.maps.perform (.declareRoutine n sig)).2 := by
  cases h : s.routines.lookup n with
  | some _ =>
    have hs : s.declareRoutine n sig = none := by simp [declareRoutine, h]
    simp [perform, ScopeMaps.perform, hs, maps, h]
  | none =>
    have hs : s.declareRoutine n sig = some { s with routines := s.routines ++ [(n, sig)] } := by
      simp [declareRoutine, h]
    have hm : (s.maps.routines n).isSome = false := by simp [maps, h]
    simp only [perform, ScopeMaps.perform, hs, hm, Bool.false_eq_true, ↓reduceIte, true_and]
    ext1 <;> simp [maps, frames, lookup_append_fresh_update h]

theorem perform_defineType (ty : Ty) :
    (s.perform (.defineType n ty)).1 = (s.maps.perform (.defineType n ty)).1 ∧
      (s.perform (.defineType n ty)).2.maps = (s.maps.perform (.defineType n ty)).2 := by
  have hsame : s.maps.isType n = s.isTypeDefined n := rfl
  cases h : s.isTypeDefined n with
  | true =>
    have hs : s.defineType n ty = none := by simp [defineType, h]
    simp [perform, ScopeMaps.perform, hs, hsame, h]
  | false =>
    have hs : s.defineType n ty = some { s with types := s.types ++ [(n, ty)] } := by
      simp [defineType, h]
    have hfresh : s.types.lookup n = none := by
      simp only [isTypeDefined, Bool.or_eq_false_iff, Option.isSome_eq_false_iff,
        Option.isNone_iff_eq_none] at h
      exact h.2
    simp only [perform, ScopeMaps.perform, hs, hsame, h, Bool.false_eq_true, ↓reduceIte, true_and]
    ext1 <;> simp [maps, frames, lookup_append_fresh_update hfresh]

/-- Every operation gives the model's answer and moves the model as the model moves. -/
theorem perform_maps : Commutes perform ScopeMaps.perform maps := by
  intro op s
  cases op with
  | enterScope => exact ⟨rfl, s.maps_enter⟩
  | exitScope => exact ⟨rfl, s.maps_exit⟩
  | clear => exact ⟨rfl, maps_empty⟩
  | declareVariable n ty => exact ⟨rfl, s.maps_declare n ty⟩
  | declareRoutine n sig => exact s.perform_declareRoutine n sig
  | defineType n ty => exact s.perform_defineType n ty
  | isDefined n => exact ⟨congrArg _ (s.isDefined_maps n), rfl⟩
  | isDefinedInCurrentScope n => exact ⟨congrArg _ (s.isDefinedHere_maps n), rfl⟩
  | getType n => exact ⟨congrArg _ (s.typeOf?_maps n), rfl⟩
  | globalType n => exact ⟨congrArg _ (s.globalType?_maps n), rfl⟩
  | getRoutine n => exact ⟨rfl, rfl⟩
  | isTypeDefined n => exact ⟨rfl, rfl⟩
  | isBuiltinType n => exact ⟨rfl, rfl⟩
  | getTypeDefinition n => exact ⟨rfl, rfl⟩
  | scopeDepth => exact ⟨congrArg _ s.depth_maps, rfl⟩

end Scopes

/-! ## Brackets -/

namespace ScopeMaps

/-- Declaring a routine or a type leaves the variables' scopes alone. -/
theorem frames_perform {op : TableOp} (h : op.movesScopes = false) (t : ScopeMaps) :
    (perform op t).2.frames = t.frames := by
  cases op <;> simp only [TableOp.movesScopes, Bool.true_eq_false] at h <;>
    simp only [perform] <;> split <;> rfl

/-- The stack of `base` with scopes of its own pushed on top. -/
def Above (base : List (String → Option Ty)) (t : ScopeMaps) : Prop :=
  ∃ pushed, pushed ≠ [] ∧ t.frames = pushed ++ base

/-- One operation keeps scopes above `base` as long as it leaves more of them than `base` has. -/
theorem Above.next {base : List (String → Option Ty)} {t : ScopeMaps} (h : Above base t)
    (op : TableOp) (hdepth : base.length < ((perform op t).2).frames.length) :
    Above base (perform op t).2 := by
  obtain ⟨pushed, hne, hframes⟩ := h
  cases op with
  | enterScope =>
    exact ⟨(fun _ => none) :: pushed, List.cons_ne_nil _ _, by simp [perform, enter, hframes]⟩
  | exitScope =>
    simp only [perform, exit] at hdepth ⊢
    split
    · refine ⟨pushed.tail, ?_, ?_⟩
      · rintro hnil
        rw [dif_pos (by assumption)] at hdepth
        cases pushed with
        | nil => contradiction
        | cons _ _ => simp_all
      · cases pushed with
        | nil => contradiction
        | cons _ _ => simp [hframes]
    · exact ⟨pushed, hne, hframes⟩
  | clear =>
    -- `clear` leaves one scope, so only an empty `base` stays below it
    simp only [perform, init, List.length_singleton, Nat.lt_one_iff, List.length_eq_zero_iff] at hdepth
    subst hdepth
    exact ⟨[fun _ => none], List.cons_ne_nil _ _, by simp [perform, init]⟩
  | declareVariable n ty =>
    cases pushed with
    | nil => contradiction
    | cons f rest =>
      exact ⟨Function.update f n (some ty) :: rest, List.cons_ne_nil _ _,
        by simp [perform, declare, top, hframes]⟩
  | declareRoutine n sig => exact ⟨pushed, hne, by rw [frames_perform rfl, hframes]⟩
  | defineType n ty => exact ⟨pushed, hne, by rw [frames_perform rfl, hframes]⟩
  | isDefined n => exact ⟨pushed, hne, hframes⟩
  | isDefinedInCurrentScope n => exact ⟨pushed, hne, hframes⟩
  | getType n => exact ⟨pushed, hne, hframes⟩
  | globalType n => exact ⟨pushed, hne, hframes⟩
  | getRoutine n => exact ⟨pushed, hne, hframes⟩
  | isTypeDefined n => exact ⟨pushed, hne, hframes⟩
  | isBuiltinType n => exact ⟨pushed, hne, hframes⟩
  | getTypeDefinition n => exact ⟨pushed, hne, hframes⟩
  | scopeDepth => exact ⟨pushed, hne, hframes⟩

/-- Operations that leave more scopes than `base` has after each step keep scopes above it. -/
theorem Above.run {base : List (String → Option Ty)} :
    ∀ (ops : List TableOp) {t : ScopeMaps}, Above base t →
      (∀ u ∈ statesOf perform ops t, base.length < u.frames.length) →
      Above base (afterOps perform ops t) := by
  intro ops
  induction ops with
  | nil => intro t h _; exact h
  | cons op ops ih =>
    intro t h hstates
    have hnext : base.length < (perform op t).2.frames.length := hstates _ List.mem_cons_self
    exact ih (h.next op hnext) fun u hu => hstates u (List.mem_cons_of_mem _ hu)

/-- A bracket whose inner operations keep its own scope open, and end with only that scope
above where it started, gives back the scopes it started from. -/
theorem bracket_frames (t : ScopeMaps) (inner : List TableOp)
    (hopen : ∀ u ∈ statesOf perform inner t.enter, t.frames.length < u.frames.length)
    (hclose : (afterOps perform inner t.enter).frames.length = t.frames.length + 1) :
    (afterOps perform (.enterScope :: inner ++ [.exitScope]) t).frames = t.frames := by
  obtain ⟨pushed, hne, hframes⟩ :=
    Above.run inner (⟨[fun _ => none], List.cons_ne_nil _ _, rfl⟩ : Above t.frames t.enter) hopen
  -- at the end exactly the bracket's own scope is above the start
  have hone : pushed.length = 1 := by
    rw [hframes, List.length_append] at hclose
    omega
  obtain ⟨f, rfl⟩ := List.length_eq_one_iff.1 hone
  have hlong : 1 < (afterOps perform inner t.enter).frames.length := by
    have := List.length_pos_iff.2 t.nonempty
    omega
  rw [List.cons_append, afterOps, afterOps_append]
  simp only [afterOps, perform, exit, dif_pos hlong, hframes, List.singleton_append, List.tail_cons]

end ScopeMaps

/-- The scopes answer every sequence of operations from the empty scopes as the stack of maps
does; the global scope is always there; and after a bracket `enter … exit` whose inner
operations never close the bracket's own scope, every question about variables gets the answer
it got before. -/
theorem scopes_follow_maps :
    (∀ ops, answersOf Scopes.perform ops Scopes.empty =
      answersOf ScopeMaps.perform ops ScopeMaps.init) ∧
    (∀ ops, 1 ≤ (afterOps Scopes.perform ops Scopes.empty).depth) ∧
    (∀ (s : Scopes) (inner : List TableOp),
      (∀ u ∈ statesOf Scopes.perform inner s.enter, s.depth < u.depth) →
      (afterOps Scopes.perform inner s.enter).depth = s.depth + 1 →
      ∀ q : TableOp, q.asksVariable = true →
        (Scopes.perform q (afterOps Scopes.perform (.enterScope :: inner ++ [.exitScope]) s)).1 =
          (Scopes.perform q s).1) := by
  refine ⟨fun ops => ?_, fun ops => Nat.le_add_left 1 _, fun s inner hopen hclose q hq => ?_⟩
  · rw [Scopes.perform_maps.answersOf, Scopes.maps_empty]
  · -- read the bracket in the model, where its inner operations give the scopes back
    have hopen' : ∀ u ∈ statesOf ScopeMaps.perform inner s.maps.enter,
        s.maps.frames.length < u.frames.length := by
      rw [← s.maps_enter, ← Scopes.perform_maps.statesOf]
      intro u hu
      obtain ⟨v, hv, rfl⟩ := List.mem_map.1 hu
      rw [← Scopes.depth_maps, ← Scopes.depth_maps]
      exact hopen v hv
    have hclose' : (afterOps ScopeMaps.perform inner s.maps.enter).frames.length =
        s.maps.frames.length + 1 := by
      rw [← s.maps_enter, ← Scopes.perform_maps.afterOps, ← Scopes.depth_maps,
        ← Scopes.depth_maps, hclose]
    have hframes := ScopeMaps.bracket_frames s.maps inner hopen' hclose'
    rw [(Scopes.perform_maps q _).1, Scopes.perform_maps.afterOps, (Scopes.perform_maps q s).1]
    exact (ScopeMaps.perform_asksVariable hq hframes).1

/-- Shadowing a global inside a bracket, with a nested bracket in it, leaves the global's
type visible again. -/
theorem shadowed_global_visible_again :
    (∀ u ∈ statesOf Scopes.perform [.declareVariable "x" .real, .enterScope, .exitScope]
        (Scopes.empty.declare "x" .integer).enter,
      (Scopes.empty.declare "x" .integer).depth < u.depth) ∧
    (afterOps Scopes.perform [.declareVariable "x" .real, .enterScope, .exitScope]
        (Scopes.empty.declare "x" .integer).enter).depth =
      (Scopes.empty.declare "x" .integer).depth + 1 ∧
    (Scopes.perform (.getType "x") (afterOps Scopes.perform
        (.enterScope :: [.declareVariable "x" .real, .enterScope, .exitScope] ++ [.exitScope])
        (Scopes.empty.declare "x" .integer))).1 = .type (some .integer) :=
  ⟨by decide, rfl,
    (scopes_follow_maps.2.2 _ _ (by decide) rfl (.getType "x") rfl).trans rfl⟩

end ImpStack
