/-!
# The environment of a run

What a run finds around it beside the files: variables, processors, a terminal, and workers.

Workers share the tasks of a run. Which of them does which task, and when, is their own affair; what
shows is the order in which the results are collected, and this is all that a pool of workers is
here. Before that the workers have to be started. The environment may refuse to start so many, and
then says why.
-/

namespace EdnTokens

/-- Workers that have been started. Given a number of tasks, which are numbered from zero, they
collect the results in some order. -/
structure WorkerPool where
  order : Nat → List Nat

namespace WorkerPool

/-- The results of a number of tasks, as they are collected. -/
def collect {α : Type} (pool : WorkerPool) (count : Nat) (task : Nat → α) : List α :=
  (pool.order count).map task

/-- Each task is done once, and the results are collected in the order of the tasks. -/
def KeepsOrder (pool : WorkerPool) : Prop :=
  ∀ count, pool.order count = List.range count

/-- Workers that take one task after the other. -/
def inOrder : WorkerPool where
  order := List.range

/-- Workers that take one task after the other keep their order. -/
theorem keepsOrder_inOrder : inOrder.KeepsOrder :=
  fun _ => rfl

end WorkerPool

/-- What starts the workers of a run: given their number, it answers with a pool of so many, or with
the reason why they could not be started. -/
structure WorkerHost where
  start : Nat → Except String WorkerPool

namespace WorkerHost

/-- Whatever pool the host starts keeps the order of the tasks. -/
def KeepsOrder (host : WorkerHost) : Prop :=
  ∀ workers pool, host.start workers = .ok pool → pool.KeepsOrder

/-- The host that starts any number of workers. -/
def willing : WorkerHost where
  start _ := .ok .inOrder

/-- The host that runs out of resources beyond a number of workers. -/
def upTo (limit : Nat) : WorkerHost where
  start workers :=
    if workers ≤ limit then .ok .inOrder
    else .error "Resource temporarily unavailable (os error 11)"

/-- A host that never refuses keeps the order of the tasks. -/
theorem keepsOrder_willing : willing.KeepsOrder := by
  intro _ _ hstart
  cases hstart
  exact WorkerPool.keepsOrder_inOrder

end WorkerHost

/-- What a run sees of its surroundings beside the files. -/
structure Environment where
  /-- The values of the variables that are set. -/
  valueOf? : String → Option String
  /-- The number of processors. -/
  processors : Nat := 1
  /-- Whether messages go to a terminal. -/
  terminal : Bool := false
  /-- What starts the workers. -/
  workers : WorkerHost := .willing

end EdnTokens
