/-! Programs that may fail and keep the state they had reached when they did.

Four program logics over them: a relation that two programs keep while giving
the same result, a relation between the states before and after one program, a
preorder that a program goes up in, and a property of the results. The second one
needs no reflexivity, so it can be about the states of an invariant only. -/

set_option autoImplicit false

namespace AgenticEnterprise.Library

abbrev Effect (State Failure Result : Type) : Type :=
  ExceptT Failure (StateM State) Result

namespace Effect

variable {State Failure Result First Second : Type}

def exec (action : Effect State Failure Result) (state : State) :
    Except Failure Result × State :=
  StateT.run (ExceptT.run action) state

def read (view : State → Result) : Effect State Failure Result :=
  fun state => (.ok (view state), state)

def write (change : State → State) : Effect State Failure Unit :=
  fun state => (.ok (), change state)

def ofExcept (result : Except Failure Result) : Effect State Failure Result :=
  fun state => (result, state)

/-- `cleanup` runs in any case, and what it raises takes the place of the outcome. -/
def ensuring (action : Effect State Failure Result) (cleanup : Effect State Failure Unit) :
    Effect State Failure Result := fun state =>
  match action state with
  | (outcome, after) =>
      match cleanup after with
      | (.ok (), last) => (outcome, last)
      | (.error failure, last) => (.error failure, last)

/-- The outcome of a program, whichever it is. -/
def attempt {Other : Type} (action : Effect State Failure Result) :
    Effect State Other (Except Failure Result) := fun state =>
  match action state with
  | (outcome, after) => (.ok outcome, after)

@[simp] theorem exec_pure (result : Result) (state : State) :
    exec (pure result : Effect State Failure Result) state = (.ok result, state) := rfl

@[simp] theorem exec_throw (failure : Failure) (state : State) :
    exec (throw failure : Effect State Failure Result) state = (.error failure, state) := rfl

@[simp] theorem exec_read (view : State → Result) (state : State) :
    exec (read view : Effect State Failure Result) state = (.ok (view state), state) := rfl

@[simp] theorem exec_write (change : State → State) (state : State) :
    exec (write change : Effect State Failure Unit) state = (.ok (), change state) := rfl

@[simp] theorem exec_ofExcept (result : Except Failure Result) (state : State) :
    exec (ofExcept result) state = (result, state) := rfl

@[simp] theorem exec_ensuring (action : Effect State Failure Result)
    (cleanup : Effect State Failure Unit) (state : State) :
    exec (ensuring action cleanup) state =
      match exec cleanup (exec action state).2 with
      | (.ok (), last) => ((exec action state).1, last)
      | (.error failure, last) => (.error failure, last) := rfl

@[simp] theorem exec_attempt {Other : Type} (action : Effect State Failure Result)
    (state : State) :
    exec (attempt action : Effect State Other (Except Failure Result)) state =
      (.ok (exec action state).1, (exec action state).2) := rfl

/-- The two ways a sequence of two programs goes. -/
theorem exec_bind (action : Effect State Failure First)
    (next : First → Effect State Failure Second) (state : State) :
    exec (action >>= next) state =
      match exec action state with
      | (.ok first, after) => exec (next first) after
      | (.error failure, after) => (.error failure, after) := by
  unfold exec ExceptT.run StateT.run
  simp only [bind, ExceptT.bind, ExceptT.mk, ExceptT.bindCont, StateT.bind]
  rcases action state with ⟨_ | _, _⟩ <;> rfl

/-- A sequence that returns has returned from both of its programs. -/
theorem exec_bind_ok {action : Effect State Failure First}
    {next : First → Effect State Failure Second} {state after : State} {result : Second}
    (ran : exec (action >>= next) state = (.ok result, after)) :
    ∃ first middle, exec action state = (.ok first, middle) ∧
      exec (next first) middle = (.ok result, after) := by
  rw [exec_bind] at ran
  rcases first : exec action state with ⟨failure | result, middle⟩
  · simp [first] at ran
  · rw [first] at ran
    exact ⟨result, middle, rfl, ran⟩

theorem exec_bind_ok_iff {action : Effect State Failure First}
    {next : First → Effect State Failure Second} {state after : State} {result : Second} :
    exec (action >>= next) state = (.ok result, after) ↔
      ∃ first middle, exec action state = (.ok first, middle) ∧
        exec (next first) middle = (.ok result, after) := by
  refine ⟨exec_bind_ok, ?_⟩
  rintro ⟨first, middle, ran, rest⟩
  rw [exec_bind, ran]
  exact rest

theorem exec_ofExcept_ok {outcome : Except Failure Result} {state after : State}
    {result : Result} (ran : exec (ofExcept outcome) state = (.ok result, after)) :
    outcome = .ok result ∧ after = state := by
  obtain ⟨returned, rfl⟩ := Prod.mk.inj ran
  exact ⟨returned, rfl⟩

theorem exec_tryCatch (action : Effect State Failure Result)
    (handler : Failure → Effect State Failure Result) (state : State) :
    exec (tryCatch action handler) state =
      match exec action state with
      | (.ok result, after) => (.ok result, after)
      | (.error failure, after) => exec (handler failure) after := by
  unfold exec ExceptT.run StateT.run
  simp only [tryCatch, tryCatchThe, MonadExceptOf.tryCatch, ExceptT.tryCatch, ExceptT.mk, bind,
    StateT.bind]
  rcases action state with ⟨_ | _, _⟩ <;> rfl

end Effect

/-- A relation on the states of an invariant: those that are related to
themselves. -/
structure PartialEquivalence (State : Type) where
  related : State → State → Prop
  symm : ∀ {left right}, related left right → related right left
  trans : ∀ {first second third}, related first second → related second third →
    related first third

namespace PartialEquivalence

variable {State Failure Result First Second : Type}

/-- Any two states of an invariant. -/
def invariant (holds : State → Prop) : PartialEquivalence State where
  related left right := holds left ∧ holds right
  symm both := ⟨both.2, both.1⟩
  trans first second := ⟨first.1, second.2⟩

/-- The states that look the same through a view. -/
def same {View : Type} (view : State → View) : PartialEquivalence State where
  related left right := view left = view right
  symm equal := equal.symm
  trans first second := first.trans second

variable (equivalence : PartialEquivalence State)

/-- From related states, the same result and related states again. -/
def Agree (left right : Effect State Failure Result) : Prop :=
  ∀ first second, equivalence.related first second →
    (left.exec first).1 = (right.exec second).1 ∧
      equivalence.related (left.exec first).2 (right.exec second).2

/-- The state afterwards is related to the one before. -/
def Keeps (action : Effect State Failure Result) : Prop :=
  ∀ state, equivalence.related state state → equivalence.related state (action.exec state).2

/-- A result the program can have from a state of the relation. -/
def Yields (action : Effect State Failure Result) (result : Result) : Prop :=
  ∃ state after, equivalence.related state state ∧ action.exec state = (.ok result, after)

variable {equivalence}

theorem Yields.of_ofExcept {outcome : Except Failure Result} {result : Result}
    (yielded : equivalence.Yields (Effect.ofExcept outcome) result) : outcome = .ok result := by
  obtain ⟨state, after, _, ran⟩ := yielded
  exact congrArg Prod.fst ran

theorem right_refl {left right : State} (same : equivalence.related left right) :
    equivalence.related right right :=
  equivalence.trans (equivalence.symm same) same

theorem left_refl {left right : State} (same : equivalence.related left right) :
    equivalence.related left left :=
  equivalence.trans same (equivalence.symm same)

/-! ## Two programs -/

namespace Agree

theorem pure (result : Result) :
    equivalence.Agree (Pure.pure result : Effect State Failure Result) (Pure.pure result) :=
  fun _ _ same => ⟨rfl, same⟩

theorem throw (failure : Failure) :
    equivalence.Agree (throw failure : Effect State Failure Result) (throw failure) :=
  fun _ _ same => ⟨rfl, same⟩

theorem ofExcept (result : Except Failure Result) :
    equivalence.Agree (Effect.ofExcept result) (Effect.ofExcept result) :=
  fun _ _ same => ⟨rfl, same⟩

theorem read {view : State → Result}
    (same : ∀ {left right}, equivalence.related left right → view left = view right) :
    equivalence.Agree (Effect.read view : Effect State Failure Result) (Effect.read view) :=
  fun _ _ related => ⟨congrArg Except.ok (same related), related⟩

theorem write {change other : State → State}
    (kept : ∀ {left right}, equivalence.related left right →
      equivalence.related (change left) (other right)) :
    equivalence.Agree (Effect.write change : Effect State Failure Unit) (Effect.write other) :=
  fun _ _ related => ⟨rfl, kept related⟩

theorem bind_yielded {left right : Effect State Failure First}
    {leftNext rightNext : First → Effect State Failure Second}
    (agree : equivalence.Agree left right)
    (next : ∀ first, equivalence.Yields left first →
      equivalence.Agree (leftNext first) (rightNext first)) :
    equivalence.Agree (left >>= leftNext) (right >>= rightNext) := by
  intro first second related
  obtain ⟨same, after⟩ := agree first second related
  rw [Effect.exec_bind, Effect.exec_bind]
  rcases leftRun : left.exec first with ⟨result, reached⟩
  rcases rightRun : right.exec second with ⟨other, otherReached⟩
  rw [leftRun, rightRun] at same after
  dsimp only at same after
  subst same
  cases result with
  | error failure => exact ⟨rfl, after⟩
  | ok result => exact next result ⟨first, reached, left_refl related, leftRun⟩ _ _ after

theorem bind {left right : Effect State Failure First}
    {leftNext rightNext : First → Effect State Failure Second}
    (agree : equivalence.Agree left right)
    (next : ∀ first, equivalence.Agree (leftNext first) (rightNext first)) :
    equivalence.Agree (left >>= leftNext) (right >>= rightNext) :=
  agree.bind_yielded fun first _ => next first

theorem bind_ofExcept {result : Except Failure First}
    {leftNext rightNext : First → Effect State Failure Second}
    (next : ∀ first, result = .ok first → equivalence.Agree (leftNext first) (rightNext first)) :
    equivalence.Agree (Effect.ofExcept result >>= leftNext)
      (Effect.ofExcept result >>= rightNext) :=
  (ofExcept result).bind_yielded fun first yielded => next first yielded.of_ofExcept

theorem tryCatch {left right : Effect State Failure Result}
    {leftHandler rightHandler : Failure → Effect State Failure Result}
    (agree : equivalence.Agree left right)
    (handled : ∀ failure, equivalence.Agree (leftHandler failure) (rightHandler failure)) :
    equivalence.Agree (tryCatch left leftHandler) (tryCatch right rightHandler) := by
  intro first second related
  obtain ⟨same, after⟩ := agree first second related
  rw [Effect.exec_tryCatch, Effect.exec_tryCatch]
  rcases leftRun : left.exec first with ⟨result, reached⟩
  rcases rightRun : right.exec second with ⟨other, otherReached⟩
  rw [leftRun, rightRun] at same after
  dsimp only at same after
  subst same
  cases result with
  | error failure => exact handled failure _ _ after
  | ok result => exact ⟨rfl, after⟩

end Agree

/-! ## One program -/

namespace Keeps

theorem pure (result : Result) :
    equivalence.Keeps (Pure.pure result : Effect State Failure Result) :=
  fun _ same => same

theorem throw (failure : Failure) :
    equivalence.Keeps (throw failure : Effect State Failure Result) :=
  fun _ same => same

theorem ofExcept (result : Except Failure Result) :
    equivalence.Keeps (Effect.ofExcept result) :=
  fun _ same => same

theorem read (view : State → Result) :
    equivalence.Keeps (Effect.read view : Effect State Failure Result) :=
  fun _ same => same

theorem write {change : State → State}
    (kept : ∀ {state}, equivalence.related state state → equivalence.related state (change state)) :
    equivalence.Keeps (Effect.write change : Effect State Failure Unit) :=
  fun _ same => kept same

theorem bind_yielded {action : Effect State Failure First}
    {next : First → Effect State Failure Second} (keeps : equivalence.Keeps action)
    (later : ∀ first, equivalence.Yields action first → equivalence.Keeps (next first)) :
    equivalence.Keeps (action >>= next) := by
  intro state same
  have reached := keeps state same
  rw [Effect.exec_bind]
  rcases run : action.exec state with ⟨result, after⟩
  rw [run] at reached
  cases result with
  | error failure => exact reached
  | ok result =>
      exact equivalence.trans reached
        (later result ⟨state, after, same, run⟩ after (right_refl reached))

theorem bind {action : Effect State Failure First} {next : First → Effect State Failure Second}
    (keeps : equivalence.Keeps action) (later : ∀ first, equivalence.Keeps (next first)) :
    equivalence.Keeps (action >>= next) :=
  keeps.bind_yielded fun first _ => later first

theorem bind_ofExcept {result : Except Failure First}
    {next : First → Effect State Failure Second}
    (later : ∀ first, result = .ok first → equivalence.Keeps (next first)) :
    equivalence.Keeps (Effect.ofExcept result >>= next) :=
  (ofExcept result).bind_yielded fun first yielded => later first yielded.of_ofExcept

theorem tryCatch {action : Effect State Failure Result}
    {handler : Failure → Effect State Failure Result} (keeps : equivalence.Keeps action)
    (handled : ∀ failure, equivalence.Keeps (handler failure)) :
    equivalence.Keeps (tryCatch action handler) := by
  intro state same
  have reached := keeps state same
  rw [Effect.exec_tryCatch]
  rcases run : action.exec state with ⟨result, after⟩
  rw [run] at reached
  cases result with
  | error failure => exact equivalence.trans reached (handled failure after (right_refl reached))
  | ok result => exact reached

/-- What a view determines is kept with the view. -/
theorem invariant {View : Type} {view : State → View} {action : Effect State Failure Result}
    (keeps : (PartialEquivalence.same view).Keeps action) (holds : View → Prop) :
    (PartialEquivalence.invariant fun state => holds (view state)).Keeps action := by
  intro state both
  have equal : view state = view (action.exec state).2 := keeps state rfl
  refine ⟨both.1, ?_⟩
  show holds (view (action.exec state).2)
  rw [← equal]
  exact both.1

/-- Two programs that each keep the relation keep it between them, whatever
their results are. -/
theorem both {left : Effect State Failure First} {right : Effect State Failure Second}
    (leftKeeps : equivalence.Keeps left) (rightKeeps : equivalence.Keeps right)
    {first second : State} (related : equivalence.related first second) :
    equivalence.related (left.exec first).2 (right.exec second).2 :=
  equivalence.trans (equivalence.symm (leftKeeps first (left_refl related)))
    (equivalence.trans related (rightKeeps second (right_refl related)))

end Keeps

end PartialEquivalence

/-- A preorder on states. -/
structure Growth (State : Type) where
  grows : State → State → Prop
  refl : ∀ state, grows state state
  trans : ∀ {first second third}, grows first second → grows second third → grows first third

namespace Growth

variable {State Failure Result First Second : Type} (growth : Growth State)

/-- Wherever the program stops, it has gone up. -/
def Leads (action : Effect State Failure Result) : Prop :=
  ∀ state, growth.grows state (action.exec state).2

variable {growth}

/-- The rule of sequences at one state, where the second program is known to start from
what the first one has left. -/
theorem grows_bind {action : Effect State Failure First}
    {next : First → Effect State Failure Second} {state : State}
    (reached : growth.grows state (action.exec state).2)
    (later : ∀ first after, action.exec state = (.ok first, after) →
      growth.grows after ((next first).exec after).2) :
    growth.grows state ((action >>= next).exec state).2 := by
  rw [Effect.exec_bind]
  rcases run : action.exec state with ⟨result, after⟩
  rw [run] at reached
  cases result with
  | error failure => exact reached
  | ok result => exact growth.trans reached (later result after run)

theorem grows_bind_ofExcept {result : Except Failure First}
    {next : First → Effect State Failure Second} {state : State}
    (later : ∀ first, result = .ok first → growth.grows state ((next first).exec state).2) :
    growth.grows state ((Effect.ofExcept result >>= next).exec state).2 := by
  refine grows_bind (growth.refl state) fun first after ran => ?_
  rw [Effect.exec_ofExcept, Prod.mk.injEq] at ran
  obtain ⟨outcome, rfl⟩ := ran
  exact later first outcome

namespace Leads

theorem pure (result : Result) :
    growth.Leads (Pure.pure result : Effect State Failure Result) :=
  growth.refl

theorem throw (failure : Failure) : growth.Leads (throw failure : Effect State Failure Result) :=
  growth.refl

theorem ofExcept (result : Except Failure Result) : growth.Leads (Effect.ofExcept result) :=
  growth.refl

theorem read (view : State → Result) :
    growth.Leads (Effect.read view : Effect State Failure Result) :=
  growth.refl

theorem write {change : State → State} (up : ∀ state, growth.grows state (change state)) :
    growth.Leads (Effect.write change : Effect State Failure Unit) :=
  up

theorem bind {action : Effect State Failure First} {next : First → Effect State Failure Second}
    (leads : growth.Leads action) (later : ∀ first, growth.Leads (next first)) :
    growth.Leads (action >>= next) :=
  fun state => grows_bind (leads state) fun first after _ => later first after

theorem bind_ofExcept {result : Except Failure First}
    {next : First → Effect State Failure Second}
    (later : ∀ first, result = .ok first → growth.Leads (next first)) :
    growth.Leads (Effect.ofExcept result >>= next) :=
  fun state => grows_bind_ofExcept fun first outcome => later first outcome state

/-- What is read is what the rest of the program starts from. -/
theorem bind_read {view : State → First} {next : First → Effect State Failure Second}
    (later : ∀ state, growth.grows state ((next (view state)).exec state).2) :
    growth.Leads (Effect.read view >>= next) := by
  intro state
  rw [Effect.exec_bind, Effect.exec_read]
  exact later state

theorem tryCatch {action : Effect State Failure Result}
    {handler : Failure → Effect State Failure Result} (leads : growth.Leads action)
    (handled : ∀ failure, growth.Leads (handler failure)) :
    growth.Leads (tryCatch action handler) := by
  intro state
  have reached := leads state
  rw [Effect.exec_tryCatch]
  rcases run : action.exec state with ⟨result, after⟩
  rw [run] at reached
  cases result with
  | error failure => exact growth.trans reached (handled failure after)
  | ok result => exact reached

end Leads

end Growth

/-- What holds of every result the program returns. -/
def Returns {State Failure Result : Type} (post : Result → Prop)
    (action : Effect State Failure Result) : Prop :=
  ∀ state result after, action.exec state = (.ok result, after) → post result

namespace Returns

variable {State Failure Result First : Type} {post : Result → Prop}

theorem pure {result : Result} (holds : post result) :
    Returns post (Pure.pure result : Effect State Failure Result) := by
  intro state returned after ran
  cases ran
  exact holds

theorem throw (failure : Failure) :
    Returns post (throw failure : Effect State Failure Result) := by
  intro state returned after ran
  cases ran

theorem ofExcept {outcome : Except Failure Result}
    (holds : ∀ result, outcome = .ok result → post result) :
    Returns post (Effect.ofExcept outcome : Effect State Failure Result) := by
  intro state result after ran
  exact holds result (Effect.exec_ofExcept_ok ran).1

theorem bind {action : Effect State Failure First} {next : First → Effect State Failure Result}
    (later : ∀ first, Returns post (next first)) : Returns post (action >>= next) := by
  intro state result after ran
  obtain ⟨first, middle, _, rest⟩ := Effect.exec_bind_ok ran
  exact later first middle result after rest

theorem bind_ofExcept {outcome : Except Failure First}
    {next : First → Effect State Failure Result}
    (later : ∀ first, outcome = .ok first → Returns post (next first)) :
    Returns post (Effect.ofExcept outcome >>= next) := by
  intro state result after ran
  obtain ⟨first, middle, returned, rest⟩ := Effect.exec_bind_ok ran
  exact later first (Effect.exec_ofExcept_ok returned).1 middle result after rest

theorem tryCatch {action : Effect State Failure Result}
    {handler : Failure → Effect State Failure Result} (returns : Returns post action)
    (handled : ∀ failure, Returns post (handler failure)) :
    Returns post (tryCatch action handler) := by
  intro state result after ran
  rw [Effect.exec_tryCatch] at ran
  rcases body : action.exec state with ⟨failure | returned, middle⟩
  · rw [body] at ran
    exact handled failure middle result after ran
  · rw [body] at ran
    cases ran
    exact returns state result after body

end Returns

end AgenticEnterprise.Library
