import Mathlib.Algebra.BigOperators.Group.Finset.Basic
import Mathlib.Algebra.BigOperators.Fin
import Mathlib.Algebra.Order.BigOperators.Group.Finset
import Mathlib.Data.Multiset.Basic
import Neroshop.Foundation.Transition

/-!
# The thread pool

Workers, the calls of `enqueue` and the destructor meet at one mutex.  A step
below is what a thread does between two points where another one can run, and
an owner of the mutex lets it go at the end of its step.  A worker runs a task
from when it has taken it out of the queue.
-/

namespace Neroshop.Tools

open Neroshop.Foundation

variable {Task : Type*} {threads : Nat}

/-! ## The state -/

inductive Worker (Task : Type*) where
  /-- In front of the lock, at the top of the loop or behind a wake-up. -/
  | ready
  | waiting
  | running (task : Task)
  | returned

inductive Owner (Task : Type*) (threads : Nat) where
  | worker (index : Fin threads)
  | enqueue (task : Task)
  | destructor

inductive Destructor where
  | idle
  /-- In front of the lock under which `stop` is set. -/
  | stopping
  | notifying
  | joining (joined : Nat)
  | returned

structure ThreadPool (Task : Type*) (threads : Nat) where
  workers : Fin threads → Worker Task
  tasks : List Task
  queueMutex : Option (Owner Task threads)
  stop : Bool
  /-- The calls of `enqueue` that are in front of `notify_one`. -/
  notifying : Nat
  destructor : Destructor
  /-- The tasks that have been taken from the queue so far. -/
  started : List Task
  finished : List Task

namespace Worker

def isReady : Worker Task → Bool
  | .ready => true
  | _ => false

def isWaiting : Worker Task → Bool
  | .waiting => true
  | _ => false

def wake : Worker Task → Worker Task
  | .waiting => .ready
  | worker => worker

def hasReturned : Worker Task → Bool
  | .returned => true
  | _ => false

/-- What the worker is running. -/
def tasks : Worker Task → Multiset Task
  | .running task => {task}
  | _ => 0

theorem tasks_of_isReady {worker : Worker Task} (h : worker.isReady = true) :
    worker.tasks = 0 := by
  cases worker <;> first | rfl | cases h

theorem tasks_of_isWaiting {worker : Worker Task}
    (h : worker.isWaiting = true) : worker.tasks = 0 := by
  cases worker <;> first | rfl | cases h

theorem tasks_of_hasReturned {worker : Worker Task}
    (h : worker.hasReturned = true) : worker.tasks = 0 := by
  cases worker <;> first | rfl | cases h

theorem running_of_isReady {worker : Worker Task}
    (h : worker.isReady = true) : worker.hasReturned = false := by
  cases worker <;> first | rfl | cases h

theorem running_of_isWaiting {worker : Worker Task}
    (h : worker.isWaiting = true) : worker.hasReturned = false := by
  cases worker <;> first | rfl | cases h

theorem tasks_wake (worker : Worker Task) : worker.wake.tasks = worker.tasks := by
  cases worker <;> rfl

@[simp]
theorem hasReturned_wake (worker : Worker Task) :
    worker.wake.hasReturned = worker.hasReturned := by
  cases worker <;> rfl

@[simp]
theorem isWaiting_wake (worker : Worker Task) :
    worker.wake.isWaiting = false := by
  cases worker <;> rfl

theorem isReady_wake {worker : Worker Task} (h : worker.isReady = true) :
    worker.wake.isReady = true := by
  cases worker <;> first | rfl | cases h

end Worker

/-! ## The steps -/

inductive PoolEvent (Task : Type*) (threads : Nat) where
  /-- A call of `enqueue` locks the mutex. -/
  | enqueue (task : Task)
  | push
  /-- One of the waiting workers is woken, if there are any. -/
  | notifyOne (woken : Option (Fin threads))
  | lock (worker : Fin threads)
  /-- The predicate of `wait`, and what follows under the lock. -/
  | inspect (worker : Fin threads)
  /-- A worker is woken by nobody. -/
  | wake (worker : Fin threads)
  | finish (worker : Fin threads)
  | destroy
  | lockToStop
  | stop
  | notifyAll
  | join

namespace ThreadPool

def start : ThreadPool Task threads :=
  ⟨fun _ => .ready, [], none, false, 0, .idle, [], []⟩

def enter (pool : ThreadPool Task threads) (worker : Fin threads)
    (phase : Worker Task) : ThreadPool Task threads :=
  { pool with workers := Function.update pool.workers worker phase }

def unlock (pool : ThreadPool Task threads) : ThreadPool Task threads :=
  { pool with queueMutex := none }

/-- A worker that has the mutex. -/
def inspect (pool : ThreadPool Task threads) (worker : Fin threads) :
    ThreadPool Task threads :=
  match pool.tasks with
  | [] => (pool.enter worker (if pool.stop then .returned else .waiting)).unlock
  | task :: tasks =>
      { (pool.enter worker (.running task)).unlock with
        tasks := tasks
        started := pool.started ++ [task] }

/-- A thread other than that of the destructor is inside `enqueue`. -/
def enqueuing (pool : ThreadPool Task threads) : Bool :=
  match pool.queueMutex with
  | some (.enqueue _) => true
  | _ => pool.notifying ≠ 0

def join (pool : ThreadPool Task threads) (joined : Nat) :
    Option (ThreadPool Task threads) :=
  if h : joined < threads then
    if (pool.workers ⟨joined, h⟩).hasReturned then
      some { pool with destructor := .joining (joined + 1) }
    else none
  else some { pool with destructor := .returned }

def step (pool : ThreadPool Task threads) :
    PoolEvent Task threads → Option (ThreadPool Task threads)
  | .enqueue task =>
      match pool.queueMutex, pool.destructor with
      | none, .idle => some { pool with queueMutex := some (.enqueue task) }
      | _, _ => none
  | .push =>
      match pool.queueMutex with
      | some (.enqueue task) =>
          some { pool.unlock with
            tasks := pool.tasks ++ [task]
            notifying := pool.notifying + 1 }
      | _ => none
  | .notifyOne woken =>
      if pool.notifying = 0 then none
      else
        let pool := { pool with notifying := pool.notifying - 1 }
        match woken with
        | some worker =>
            if (pool.workers worker).isWaiting then
              some (pool.enter worker .ready)
            else none
        | none =>
            if ∀ worker, (pool.workers worker).isWaiting = false then some pool
            else none
  | .lock worker =>
      match pool.queueMutex with
      | none =>
          if (pool.workers worker).isReady then
            some { pool with queueMutex := some (.worker worker) }
          else none
      | some _ => none
  | .inspect worker =>
      match pool.queueMutex with
      | some (.worker owner) =>
          if owner = worker then some (pool.inspect worker) else none
      | _ => none
  | .wake worker =>
      if (pool.workers worker).isWaiting then some (pool.enter worker .ready)
      else none
  | .finish worker =>
      match pool.workers worker with
      | .running task =>
          some { pool.enter worker .ready with
            finished := pool.finished ++ [task] }
      | _ => none
  | .destroy =>
      match pool.destructor with
      | .idle =>
          if pool.enqueuing then none
          else some { pool with destructor := .stopping }
      | _ => none
  | .lockToStop =>
      match pool.queueMutex, pool.destructor with
      | none, .stopping => some { pool with queueMutex := some .destructor }
      | _, _ => none
  | .stop =>
      match pool.queueMutex with
      | some .destructor =>
          some { pool.unlock with stop := true, destructor := .notifying }
      | _ => none
  | .notifyAll =>
      match pool.destructor with
      | .notifying =>
          some { pool with
            workers := fun worker => (pool.workers worker).wake
            destructor := .joining 0 }
      | _ => none
  | .join =>
      match pool.destructor with
      | .joining joined => pool.join joined
      | _ => none

/-- What a step can do. -/
inductive Steps (pool : ThreadPool Task threads) :
    PoolEvent Task threads → ThreadPool Task threads → Prop
  | enqueue {task : Task} (hmutex : pool.queueMutex = none)
      (hidle : pool.destructor = .idle) :
      Steps pool (.enqueue task)
        { pool with queueMutex := some (.enqueue task) }
  | push {task : Task} (hmutex : pool.queueMutex = some (.enqueue task)) :
      Steps pool .push
        { pool.unlock with
          tasks := pool.tasks ++ [task]
          notifying := pool.notifying + 1 }
  | notifyOne {worker : Fin threads} (hnotifying : pool.notifying ≠ 0)
      (hworker : (pool.workers worker).isWaiting = true) :
      Steps pool (.notifyOne (some worker))
        { pool.enter worker .ready with notifying := pool.notifying - 1 }
  | notifyNone (hnotifying : pool.notifying ≠ 0)
      (hworkers : ∀ worker, (pool.workers worker).isWaiting = false) :
      Steps pool (.notifyOne none) { pool with notifying := pool.notifying - 1 }
  | lock {worker : Fin threads} (hmutex : pool.queueMutex = none)
      (hworker : (pool.workers worker).isReady = true) :
      Steps pool (.lock worker)
        { pool with queueMutex := some (.worker worker) }
  | take {worker : Fin threads} {task : Task} {tasks : List Task}
      (hmutex : pool.queueMutex = some (.worker worker))
      (htasks : pool.tasks = task :: tasks) :
      Steps pool (.inspect worker)
        { (pool.enter worker (.running task)).unlock with
          tasks := tasks
          started := pool.started ++ [task] }
  | sleep {worker : Fin threads}
      (hmutex : pool.queueMutex = some (.worker worker))
      (htasks : pool.tasks = []) (hstop : pool.stop = false) :
      Steps pool (.inspect worker) (pool.enter worker .waiting).unlock
  | leave {worker : Fin threads}
      (hmutex : pool.queueMutex = some (.worker worker))
      (htasks : pool.tasks = []) (hstop : pool.stop = true) :
      Steps pool (.inspect worker) (pool.enter worker .returned).unlock
  | wake {worker : Fin threads}
      (hworker : (pool.workers worker).isWaiting = true) :
      Steps pool (.wake worker) (pool.enter worker .ready)
  | finish {worker : Fin threads} {task : Task}
      (hworker : pool.workers worker = .running task) :
      Steps pool (.finish worker)
        { pool.enter worker .ready with finished := pool.finished ++ [task] }
  | destroy (hidle : pool.destructor = .idle)
      (henqueuing : pool.enqueuing = false) :
      Steps pool .destroy { pool with destructor := .stopping }
  | lockToStop (hmutex : pool.queueMutex = none)
      (hstopping : pool.destructor = .stopping) :
      Steps pool .lockToStop { pool with queueMutex := some .destructor }
  | stop (hmutex : pool.queueMutex = some .destructor) :
      Steps pool .stop
        { pool.unlock with stop := true, destructor := .notifying }
  | notifyAll (hnotifying : pool.destructor = .notifying) :
      Steps pool .notifyAll
        { pool with
          workers := fun worker => (pool.workers worker).wake
          destructor := .joining 0 }
  | join {joined : Nat} (hjoining : pool.destructor = .joining joined)
      (hless : joined < threads)
      (hworker : (pool.workers ⟨joined, hless⟩).hasReturned = true) :
      Steps pool .join { pool with destructor := .joining (joined + 1) }
  | returns {joined : Nat} (hjoining : pool.destructor = .joining joined)
      (hall : threads ≤ joined) :
      Steps pool .join { pool with destructor := .returned }

theorem steps_of_step {pool next : ThreadPool Task threads}
    {event : PoolEvent Task threads} (h : pool.step event = some next) :
    Steps pool event next := by
  cases event with
  | enqueue task =>
      rw [step] at h
      split at h
      case h_1 hmutex hidle =>
        cases h
        exact .enqueue hmutex hidle
      case h_2 => cases h
  | push =>
      rw [step] at h
      split at h
      case h_1 hmutex =>
        cases h
        exact .push hmutex
      case h_2 => cases h
  | notifyOne woken =>
      rw [step] at h
      obtain ⟨hnotifying, h⟩ := Option.ite_none_left_eq_some.mp h
      cases woken with
      | some worker =>
          obtain ⟨hworker, h⟩ := Option.ite_none_right_eq_some.mp h
          cases h
          exact .notifyOne hnotifying hworker
      | none =>
          obtain ⟨hworkers, h⟩ := Option.ite_none_right_eq_some.mp h
          cases h
          exact .notifyNone hnotifying hworkers
  | lock worker =>
      rw [step] at h
      split at h
      case h_1 hmutex =>
        obtain ⟨hworker, h⟩ := Option.ite_none_right_eq_some.mp h
        cases h
        exact .lock hmutex hworker
      case h_2 => cases h
  | inspect worker =>
      rw [step] at h
      split at h
      case h_1 hmutex =>
        obtain ⟨rfl, h⟩ := Option.ite_none_right_eq_some.mp h
        cases h
        rw [inspect]
        split
        case h_1 htasks =>
          cases hstop : pool.stop with
          | true => exact .leave hmutex htasks hstop
          | false => exact .sleep hmutex htasks hstop
        case h_2 htasks => exact .take hmutex htasks
      case h_2 => cases h
  | wake worker =>
      obtain ⟨hworker, h⟩ := Option.ite_none_right_eq_some.mp h
      cases h
      exact .wake hworker
  | finish worker =>
      rw [step] at h
      split at h
      case h_1 hworker =>
        cases h
        exact .finish hworker
      case h_2 => cases h
  | destroy =>
      rw [step] at h
      split at h
      case h_1 hidle =>
        obtain ⟨henqueuing, h⟩ := Option.ite_none_left_eq_some.mp h
        cases h
        exact .destroy hidle (eq_false_of_ne_true henqueuing)
      case h_2 => cases h
  | lockToStop =>
      rw [step] at h
      split at h
      case h_1 hmutex hstopping =>
        cases h
        exact .lockToStop hmutex hstopping
      case h_2 => cases h
  | stop =>
      rw [step] at h
      split at h
      case h_1 hmutex =>
        cases h
        exact .stop hmutex
      case h_2 => cases h
  | notifyAll =>
      rw [step] at h
      split at h
      case h_1 hnotifying =>
        cases h
        exact .notifyAll hnotifying
      case h_2 => cases h
  | join =>
      rw [step] at h
      split at h
      case h_1 joined hjoining =>
        rw [join] at h
        split at h
        case isTrue hless =>
          obtain ⟨hworker, h⟩ := Option.ite_none_right_eq_some.mp h
          cases h
          exact .join hjoining hless hworker
        case isFalse hall =>
          cases h
          exact .returns hjoining (Nat.le_of_not_lt hall)
      case h_2 => cases h

theorem Steps.step {pool next : ThreadPool Task threads}
    {event : PoolEvent Task threads} (h : Steps pool event next) :
    pool.step event = some next := by
  cases h with
  | enqueue hmutex hidle => simp only [ThreadPool.step, hmutex, hidle]
  | push hmutex => simp only [ThreadPool.step, hmutex]
  | notifyOne hnotifying hworker =>
      rw [ThreadPool.step, if_neg hnotifying]
      exact if_pos hworker
  | notifyNone hnotifying hworkers =>
      rw [ThreadPool.step, if_neg hnotifying]
      exact if_pos hworkers
  | lock hmutex hworker =>
      simp only [ThreadPool.step, hmutex]
      exact if_pos hworker
  | take hmutex htasks =>
      simp only [ThreadPool.step, hmutex, if_true, ThreadPool.inspect, htasks]
  | sleep hmutex htasks hstop =>
      simp only [ThreadPool.step, hmutex, if_true, ThreadPool.inspect, htasks,
        hstop, Bool.false_eq_true, if_false]
  | leave hmutex htasks hstop =>
      simp only [ThreadPool.step, hmutex, if_true, ThreadPool.inspect, htasks,
        hstop]
  | wake hworker => exact if_pos hworker
  | finish hworker => simp only [ThreadPool.step, hworker]
  | destroy hidle henqueuing =>
      simp only [ThreadPool.step, hidle, henqueuing, Bool.false_eq_true, if_false]
  | lockToStop hmutex hstopping => simp only [ThreadPool.step, hmutex, hstopping]
  | stop hmutex => simp only [ThreadPool.step, hmutex]
  | notifyAll hnotifying => simp only [ThreadPool.step, hnotifying]
  | join hjoining hless hworker =>
      simp only [ThreadPool.step, hjoining, ThreadPool.join, hless, hworker,
        dif_pos, if_true]
  | returns hjoining hall =>
      simp only [ThreadPool.step, hjoining, ThreadPool.join]
      exact dif_neg (Nat.not_lt.mpr hall)

end ThreadPool

/-! ## What holds between the threads -/

namespace Destructor

/-- `stop` has been set. -/
def stopped : Destructor → Bool
  | .idle | .stopping => false
  | _ => true

def notified : Destructor → Bool
  | .joining _ | .returned => true
  | _ => false

def joined (threads : Nat) : Destructor → Nat
  | .joining joined => joined
  | .returned => threads
  | _ => 0

theorem stopped_of_notified {destructor : Destructor}
    (h : destructor.notified = true) : destructor.stopped = true := by
  cases destructor <;> first | rfl | cases h

end Destructor

namespace ThreadPool

structure Sound (pool : ThreadPool Task threads) : Prop where
  stop : pool.stop = pool.destructor.stopped
  closed : pool.destructor = .idle ∨ pool.enqueuing = false
  owner : ∀ worker, pool.queueMutex = some (.worker worker) →
    (pool.workers worker).isReady = true
  stopping : pool.queueMutex = some .destructor → pool.destructor = .stopping
  drained : ∀ worker, (pool.workers worker).hasReturned = true →
    pool.stop = true ∧ pool.tasks = []
  awake : pool.destructor.notified = true →
    ∀ worker, (pool.workers worker).isWaiting = false
  joined : ∀ worker : Fin threads,
    worker.val < pool.destructor.joined threads →
      (pool.workers worker).hasReturned = true

theorem start_sound : (start : ThreadPool Task threads).Sound where
  stop := rfl
  closed := .inl rfl
  owner := nofun
  stopping := nofun
  drained := nofun
  awake := nofun
  joined := fun _ h => absurd h (Nat.not_lt_zero _)

theorem enter_self (pool : ThreadPool Task threads) (worker : Fin threads)
    (phase : Worker Task) : (pool.enter worker phase).workers worker = phase :=
  Function.update_self ..

theorem enter_of_ne (pool : ThreadPool Task threads) {worker other : Fin threads}
    (phase : Worker Task) (hne : other ≠ worker) :
    (pool.enter worker phase).workers other = pool.workers other :=
  Function.update_of_ne hne ..

/-- One worker goes to another phase. -/
theorem Sound.enter {pool : ThreadPool Task threads} (h : pool.Sound)
    {worker : Fin threads} {phase : Worker Task}
    (howner : pool.queueMutex = some (.worker worker) → phase.isReady = true)
    (hrunning : (pool.workers worker).hasReturned = false)
    (hreturned : phase.hasReturned = true → pool.stop = true ∧ pool.tasks = [])
    (hawake : pool.destructor.notified = true → phase.isWaiting = false) :
    (pool.enter worker phase).Sound where
  stop := h.stop
  closed := h.closed
  owner other hmutex := by
    rcases eq_or_ne other worker with rfl | hne
    · rw [enter_self]
      exact howner hmutex
    · rw [enter_of_ne _ _ hne]
      exact h.owner other hmutex
  stopping := h.stopping
  drained other hother := by
    rcases eq_or_ne other worker with rfl | hne
    · rw [enter_self] at hother
      exact hreturned hother
    · rw [enter_of_ne _ _ hne] at hother
      exact h.drained other hother
  awake hnotified other := by
    rcases eq_or_ne other worker with rfl | hne
    · rw [enter_self]
      exact hawake hnotified
    · rw [enter_of_ne _ _ hne]
      exact h.awake hnotified other
  joined other hless := by
    have hother := h.joined other hless
    rcases eq_or_ne other worker with rfl | hne
    · rw [hrunning] at hother
      cases hother
    · rw [enter_of_ne _ _ hne]
      exact hother

/-- A worker lets the mutex go. -/
theorem Sound.unlock {pool : ThreadPool Task threads} (h : pool.Sound)
    {worker : Fin threads} (hmutex : pool.queueMutex = some (.worker worker)) :
    pool.unlock.Sound :=
  { h with
    closed := h.closed.imp_right fun hclosed => by
      rw [enqueuing, hmutex] at hclosed
      exact hclosed
    owner := nofun
    stopping := nofun }

/-- While a call of `enqueue` has yet to notify, no destructor runs. -/
theorem Sound.idle_of_notifying {pool : ThreadPool Task threads}
    (h : pool.Sound) (hnotifying : pool.notifying ≠ 0) :
    pool.destructor = .idle := by
  refine h.closed.resolve_right fun hclosed => ?_
  rw [enqueuing] at hclosed
  split at hclosed
  · cases hclosed
  · exact of_decide_eq_false hclosed hnotifying

theorem Sound.closed_of_stopping {pool : ThreadPool Task threads}
    (h : pool.Sound) (hstopping : pool.destructor = .stopping) :
    pool.enqueuing = false := by
  refine h.closed.resolve_left fun hidle => ?_
  rw [hidle] at hstopping
  cases hstopping

theorem steps_sound {pool next : ThreadPool Task threads}
    {event : PoolEvent Task threads} (h : pool.Sound)
    (hsteps : Steps pool event next) : next.Sound := by
  cases hsteps with
  | enqueue hmutex hidle =>
      exact { h with closed := .inl hidle, owner := nofun, stopping := nofun }
  | push hmutex =>
      have hidle : pool.destructor = .idle := by
        refine h.closed.resolve_right fun hclosed => ?_
        rw [enqueuing, hmutex] at hclosed
        cases hclosed
      have hstop := h.stop
      rw [hidle] at hstop
      refine { h with
        closed := .inl hidle
        owner := nofun
        stopping := nofun
        drained := fun worker hreturned => ?_ }
      exact absurd (h.drained worker hreturned).1 (ne_true_of_eq_false hstop)
  | @notifyOne worker hnotifying hworker =>
      have hentered : (pool.enter worker .ready).Sound :=
        h.enter (fun _ => rfl) (Worker.running_of_isWaiting hworker) nofun
          fun _ => rfl
      exact { hentered with closed := .inl (h.idle_of_notifying hnotifying) }
  | notifyNone hnotifying hworkers =>
      exact { h with closed := .inl (h.idle_of_notifying hnotifying) }
  | lock hmutex hworker =>
      refine { h with
        closed := h.closed.imp_right fun hclosed => ?_
        owner := ?_
        stopping := nofun }
      · rw [enqueuing, hmutex] at hclosed
        exact hclosed
      · intro other hother
        cases hother
        exact hworker
  | @take worker task tasks hmutex htasks =>
      have hentered : (pool.unlock.enter worker (.running task)).Sound :=
        (h.unlock hmutex).enter nofun
          (Worker.running_of_isReady (h.owner _ hmutex)) nofun fun _ => rfl
      refine { hentered with drained := fun other hreturned => ?_ }
      have hempty := (hentered.drained other hreturned).2
      exact absurd (htasks.symm.trans hempty) (List.cons_ne_nil _ _)
  | sleep hmutex htasks hstop =>
      refine (h.unlock hmutex).enter nofun
        (Worker.running_of_isReady (h.owner _ hmutex)) nofun fun hnotified => ?_
      have hset := h.stop.trans (Destructor.stopped_of_notified hnotified)
      rw [hstop] at hset
      cases hset
  | leave hmutex htasks hstop =>
      exact (h.unlock hmutex).enter nofun
        (Worker.running_of_isReady (h.owner _ hmutex))
        (fun _ => ⟨hstop, htasks⟩) fun _ => rfl
  | wake hworker =>
      exact h.enter (fun _ => rfl) (Worker.running_of_isWaiting hworker) nofun
        fun _ => rfl
  | @finish worker task hworker =>
      have hrunning : (pool.workers worker).hasReturned = false := by
        rw [hworker]
        rfl
      have hentered : (pool.enter worker .ready).Sound :=
        h.enter (fun _ => rfl) hrunning nofun fun _ => rfl
      exact { hentered with }
  | destroy hidle henqueuing =>
      have hstop := h.stop
      rw [hidle] at hstop
      exact { h with
        stop := hstop
        closed := .inr henqueuing
        stopping := fun _ => rfl
        awake := nofun
        joined := nofun }
  | lockToStop hmutex hstopping =>
      have hclosed := h.closed_of_stopping hstopping
      rw [enqueuing, hmutex] at hclosed
      exact { h with
        closed := .inr hclosed
        owner := nofun
        stopping := fun _ => hstopping }
  | stop hmutex =>
      have hclosed := h.closed_of_stopping (h.stopping hmutex)
      rw [enqueuing, hmutex] at hclosed
      exact {
        stop := rfl
        closed := .inr hclosed
        owner := nofun
        stopping := nofun
        drained := fun worker hreturned => ⟨rfl, (h.drained worker hreturned).2⟩
        awake := nofun
        joined := nofun }
  | notifyAll hnotifying =>
      have hset := h.stop
      have hclosed := h.closed
      have hstopping := h.stopping
      rw [hnotifying] at hset hclosed hstopping
      exact {
        stop := hset
        closed := .inr (hclosed.resolve_left nofun)
        owner := fun worker hmutex => Worker.isReady_wake (h.owner worker hmutex)
        stopping := fun hmutex => nomatch hstopping hmutex
        drained := fun worker hreturned =>
          h.drained worker ((Worker.hasReturned_wake _).symm.trans hreturned)
        awake := fun _ worker => Worker.isWaiting_wake _
        joined := nofun }
  | @join joined hjoining hless hworker =>
      obtain ⟨hstop, hclosed, howner, hstopping, hdrained, hawake, hjoined⟩ := h
      rw [hjoining] at hstop hclosed hstopping hawake hjoined
      refine ⟨hstop, .inr (hclosed.resolve_left nofun), howner,
        fun hmutex => (nomatch hstopping hmutex), hdrained, hawake, ?_⟩
      intro other hother
      rcases Nat.lt_succ_iff_lt_or_eq.mp hother with hbefore | hlast
      · exact hjoined other hbefore
      · cases hlast
        exact hworker
  | @returns joined hjoining hall =>
      obtain ⟨hstop, hclosed, howner, hstopping, hdrained, hawake, hjoined⟩ := h
      rw [hjoining] at hstop hclosed hstopping hawake hjoined
      exact ⟨hstop, .inr (hclosed.resolve_left nofun), howner,
        fun hmutex => (nomatch hstopping hmutex), hdrained, hawake,
        fun other _ => hjoined other (other.isLt.trans_le hall)⟩

theorem run_sound {pool next : ThreadPool Task threads}
    {events : List (PoolEvent Task threads)} (h : pool.Sound)
    (hrun : runFrom step pool events = some next) : next.Sound :=
  runFrom_invariant_of_step
    (fun _ _ _ hsound hstep => steps_sound hsound (steps_of_step hstep)) hrun h

/-! ## What becomes of the tasks -/

/-- The task of a call of `enqueue` that has the mutex. -/
def inFlight (pool : ThreadPool Task threads) : List Task :=
  match pool.queueMutex with
  | some (.enqueue task) => [task]
  | _ => []

/-- The tasks so far, in the order of the queue. -/
def history (pool : ThreadPool Task threads) : List Task :=
  pool.started ++ pool.tasks ++ pool.inFlight

end ThreadPool

def PoolEvent.task? : PoolEvent Task threads → Option Task
  | .enqueue task => some task
  | _ => none

/-- The tasks that are enqueued in a run. -/
def enqueued (events : List (PoolEvent Task threads)) : List Task :=
  events.filterMap PoolEvent.task?

namespace ThreadPool

theorem steps_history {pool next : ThreadPool Task threads}
    {event : PoolEvent Task threads} (hsteps : Steps pool event next) :
    next.history = pool.history ++ event.task?.toList := by
  cases hsteps with
  | enqueue hmutex => simp [history, inFlight, PoolEvent.task?, hmutex]
  | push hmutex => simp [history, inFlight, PoolEvent.task?, unlock, hmutex]
  | lock hmutex => simp [history, inFlight, PoolEvent.task?, hmutex]
  | take hmutex htasks =>
      simp [history, inFlight, PoolEvent.task?, unlock, enter, hmutex, htasks]
  | sleep hmutex =>
      simp [history, inFlight, PoolEvent.task?, unlock, enter, hmutex]
  | leave hmutex =>
      simp [history, inFlight, PoolEvent.task?, unlock, enter, hmutex]
  | lockToStop hmutex => simp [history, inFlight, PoolEvent.task?, hmutex]
  | stop hmutex => simp [history, inFlight, PoolEvent.task?, unlock, hmutex]
  | _ => simp [history, inFlight, PoolEvent.task?, enter]

theorem run_history {pool next : ThreadPool Task threads}
    {events : List (PoolEvent Task threads)}
    (hrun : runFrom step pool events = some next) :
    next.history = pool.history ++ enqueued events := by
  induction events generalizing pool with
  | nil =>
      cases hrun
      exact (List.append_nil _).symm
  | cons event events ih =>
      rw [runFrom_cons, Option.bind_eq_some_iff] at hrun
      obtain ⟨middle, hstep, hrest⟩ := hrun
      rw [ih hrest, steps_history (steps_of_step hstep), List.append_assoc]
      congr 1
      rw [enqueued, enqueued, List.filterMap_cons]
      cases event.task? <;> rfl

/-- The tasks that have been started have been finished or are running. -/
def Balanced (pool : ThreadPool Task threads) : Prop :=
  (pool.started : Multiset Task) =
    pool.finished + ∑ worker, (pool.workers worker).tasks

theorem sum_update {Index Value Result : Type*} [Fintype Index]
    [DecidableEq Index] [AddCommMonoid Result] (result : Value → Result)
    (values : Index → Value) (index : Index) (value : Value) :
    ∑ other, result (Function.update values index value other) +
        result (values index) =
      ∑ other, result (values other) + result value := by
  have hupdate : ∀ other, result (Function.update values index value other) =
      Function.update (fun other => result (values other)) index (result value)
        other :=
    fun other => Function.apply_update (fun _ => result) values index value other
  rw [Finset.sum_congr rfl fun other _ => hupdate other,
    Finset.sum_update_of_mem (Finset.mem_univ index),
    Finset.sdiff_singleton_eq_erase, add_assoc,
    Finset.sum_erase_add _ _ (Finset.mem_univ index), add_comm]

/-- A worker without a task goes where it has none. -/
theorem sum_tasks_enter {pool : ThreadPool Task threads} {worker : Fin threads}
    {phase : Worker Task} (hworker : (pool.workers worker).tasks = 0)
    (hphase : phase.tasks = 0) :
    ∑ other, ((pool.enter worker phase).workers other).tasks =
      ∑ other, (pool.workers other).tasks := by
  have hsum := sum_update Worker.tasks pool.workers worker phase
  rw [hworker, hphase, add_zero, add_zero] at hsum
  exact hsum

theorem steps_balanced {pool next : ThreadPool Task threads}
    {event : PoolEvent Task threads} (hsound : pool.Sound) (h : pool.Balanced)
    (hsteps : Steps pool event next) : next.Balanced := by
  cases hsteps with
  | notifyOne hnotifying hworker =>
      refine h.trans (congrArg _ (sum_tasks_enter ?_ rfl).symm)
      exact Worker.tasks_of_isWaiting hworker
  | @take worker task tasks hmutex htasks =>
      have hsum := sum_update Worker.tasks pool.workers worker (.running task)
      rw [Worker.tasks_of_isReady (hsound.owner worker hmutex), add_zero] at hsum
      change ((pool.started ++ [task] : List Task) : Multiset Task) =
        pool.finished + ∑ other,
          (Function.update pool.workers worker (.running task) other).tasks
      rw [hsum, ← add_assoc, ← h, ← Multiset.coe_add]
      rfl
  | sleep hmutex htasks hstop =>
      refine h.trans (congrArg _ (sum_tasks_enter ?_ rfl).symm)
      exact Worker.tasks_of_isReady (hsound.owner _ hmutex)
  | leave hmutex htasks hstop =>
      refine h.trans (congrArg _ (sum_tasks_enter ?_ rfl).symm)
      exact Worker.tasks_of_isReady (hsound.owner _ hmutex)
  | wake hworker =>
      refine h.trans (congrArg _ (sum_tasks_enter ?_ rfl).symm)
      exact Worker.tasks_of_isWaiting hworker
  | @finish worker task hworker =>
      have hsum := sum_update Worker.tasks pool.workers worker .ready
      rw [hworker] at hsum
      change (pool.started : Multiset Task) =
        ((pool.finished ++ [task] : List Task) : Multiset Task) + ∑ other,
          (Function.update pool.workers worker .ready other).tasks
      rw [← Multiset.coe_add, add_assoc, add_comm ([task] : Multiset Task)]
      exact h.trans (congrArg _ (hsum.trans (add_zero _)).symm)
  | notifyAll hnotifying =>
      refine h.trans (congrArg _ (Finset.sum_congr rfl fun worker _ => ?_))
      exact (Worker.tasks_wake _).symm
  | _ => exact h

theorem run_balanced {pool : ThreadPool Task threads}
    {events : List (PoolEvent Task threads)}
    (hrun : runFrom step start events = some pool) : pool.Balanced := by
  have hstart : (start : ThreadPool Task threads).Balanced := by
    simp [Balanced, start, Worker.tasks]
  have hkept : ∀ (before : ThreadPool Task threads) event next,
      before.Sound ∧ before.Balanced → before.step event = some next →
        next.Sound ∧ next.Balanced := by
    intro before event next h hstep
    have hsteps := steps_of_step hstep
    exact ⟨steps_sound h.1 hsteps, steps_balanced h.1 h.2 hsteps⟩
  exact (runFrom_invariant_of_step hkept hrun ⟨start_sound, hstart⟩).2

/-! ## No schedule goes on for ever, or gets stuck -/

end ThreadPool

/-- Neither a caller nor the condition variable makes the step of itself. -/
def PoolEvent.Internal : PoolEvent Task threads → Prop
  | .enqueue _ | .wake _ | .destroy => False
  | _ => True

def Worker.remaining : Worker Task → Nat
  | .ready => 2
  | .running _ => 3
  | _ => 0

theorem Worker.remaining_of_isReady {worker : Worker Task}
    (h : worker.isReady = true) : worker.remaining = 2 := by
  cases worker <;> first | rfl | cases h

theorem Worker.remaining_of_isWaiting {worker : Worker Task}
    (h : worker.isWaiting = true) : worker.remaining = 0 := by
  cases worker <;> first | rfl | cases h

def Destructor.remaining (threads : Nat) : Destructor → Nat
  | .idle => 0
  | .stopping => 3 * threads + 4
  | .notifying => 3 * threads + 2
  | .joining joined => threads - joined + 1
  | .returned => 0

namespace ThreadPool

def lockRemaining (pool : ThreadPool Task threads) : Nat :=
  match pool.queueMutex with
  | none => 1
  | some (.enqueue _) => 8
  | some _ => 0

/-- A bound on the steps that are left. -/
def remaining (pool : ThreadPool Task threads) : Nat :=
  3 * pool.tasks.length + 3 * pool.notifying + pool.lockRemaining +
    ∑ worker, (pool.workers worker).remaining +
    pool.destructor.remaining threads

theorem sum_remaining_update {workers : Fin threads → Worker Task}
    {worker : Fin threads} {phase : Worker Task} {before after : Nat}
    (hbefore : (workers worker).remaining = before)
    (hafter : phase.remaining = after) :
    ∑ other, (Function.update workers worker phase other).remaining + before =
      ∑ other, (workers other).remaining + after := by
  rw [← hbefore, ← hafter]
  exact sum_update Worker.remaining workers worker phase

theorem sum_remaining_wake (workers : Fin threads → Worker Task) :
    ∑ worker, (workers worker).wake.remaining ≤
      ∑ worker, (workers worker).remaining + 2 * threads := by
  have hwake : ∀ worker, (workers worker).wake.remaining ≤
      (workers worker).remaining + 2 := by
    intro worker
    cases workers worker <;> simp [Worker.wake, Worker.remaining]
  calc ∑ worker, (workers worker).wake.remaining
      ≤ ∑ worker, ((workers worker).remaining + 2) :=
        Finset.sum_le_sum fun worker _ => hwake worker
    _ = ∑ worker, (workers worker).remaining + 2 * threads := by
        rw [Finset.sum_add_distrib, Finset.sum_const, Finset.card_univ,
          Fintype.card_fin, smul_eq_mul, mul_comm]

theorem steps_remaining {pool next : ThreadPool Task threads}
    {event : PoolEvent Task threads} (hsound : pool.Sound)
    (hinternal : event.Internal) (hsteps : Steps pool event next) :
    next.remaining < pool.remaining := by
  have howner := hsound.owner
  have hstopping := hsound.stopping
  cases hsteps with
  | enqueue => exact hinternal.elim
  | wake => exact hinternal.elim
  | destroy => exact hinternal.elim
  | push hmutex =>
      simp only [remaining, lockRemaining, unlock, hmutex, List.length_append,
        List.length_singleton]
      omega
  | @notifyOne worker hnotifying hworker =>
      have hready : (Worker.ready : Worker Task).remaining = 2 := rfl
      have hsum := sum_remaining_update
        (Worker.remaining_of_isWaiting hworker) hready
      simp only [remaining, lockRemaining, enter]
      omega
  | notifyNone hnotifying hworkers =>
      simp only [remaining, lockRemaining]
      omega
  | lock hmutex hworker =>
      simp only [remaining, lockRemaining, hmutex]
      omega
  | @take worker task tasks hmutex htasks =>
      have hphase : (Worker.running task).remaining = 3 := rfl
      have hsum := sum_remaining_update
        (Worker.remaining_of_isReady (howner worker hmutex)) hphase
      simp only [remaining, lockRemaining, enter, unlock, hmutex, htasks,
        List.length_cons]
      omega
  | @sleep worker hmutex htasks hstop =>
      have hphase : (Worker.waiting : Worker Task).remaining = 0 := rfl
      have hsum := sum_remaining_update
        (Worker.remaining_of_isReady (howner worker hmutex)) hphase
      simp only [remaining, lockRemaining, enter, unlock, hmutex]
      omega
  | @leave worker hmutex htasks hstop =>
      have hphase : (Worker.returned : Worker Task).remaining = 0 := rfl
      have hsum := sum_remaining_update
        (Worker.remaining_of_isReady (howner worker hmutex)) hphase
      simp only [remaining, lockRemaining, enter, unlock, hmutex]
      omega
  | @finish worker task hworker =>
      have hbefore : (pool.workers worker).remaining = 3 := by rw [hworker]; rfl
      have hready : (Worker.ready : Worker Task).remaining = 2 := rfl
      have hsum := sum_remaining_update hbefore hready
      simp only [remaining, lockRemaining, enter]
      omega
  | lockToStop hmutex hstopping =>
      simp only [remaining, lockRemaining, hmutex]
      omega
  | stop hmutex =>
      simp only [remaining, lockRemaining, unlock, hmutex, hstopping hmutex,
        Destructor.remaining]
      omega
  | notifyAll hnotifying =>
      have hwake := sum_remaining_wake pool.workers
      simp only [remaining, lockRemaining, hnotifying, Destructor.remaining]
      omega
  | join hjoining hless hworker =>
      simp only [remaining, lockRemaining, hjoining, Destructor.remaining]
      omega
  | returns hjoining hall =>
      simp only [remaining, lockRemaining, hjoining, Destructor.remaining]
      omega

/-- Once the destructor runs, some thread of the pool can make a step. -/
theorem exists_steps {pool : ThreadPool Task threads} (h : pool.Sound)
    (hbegun : pool.destructor ≠ .idle) (hreturned : pool.destructor ≠ .returned) :
    ∃ event next, Steps pool event next ∧ event.Internal := by
  have hclosed := h.closed.resolve_left hbegun
  cases hmutex : pool.queueMutex with
  | some owner =>
      cases owner with
      | worker worker =>
          cases htasks : pool.tasks with
          | cons task tasks => exact ⟨_, _, .take hmutex htasks, trivial⟩
          | nil =>
              cases hstop : pool.stop with
              | true => exact ⟨_, _, .leave hmutex htasks hstop, trivial⟩
              | false => exact ⟨_, _, .sleep hmutex htasks hstop, trivial⟩
      | enqueue task =>
          rw [enqueuing, hmutex] at hclosed
          cases hclosed
      | destructor => exact ⟨_, _, .stop hmutex, trivial⟩
  | none =>
      cases hdestructor : pool.destructor with
      | idle => exact absurd hdestructor hbegun
      | returned => exact absurd hdestructor hreturned
      | stopping => exact ⟨_, _, .lockToStop hmutex hdestructor, trivial⟩
      | notifying => exact ⟨_, _, .notifyAll hdestructor, trivial⟩
      | joining joined =>
          by_cases hless : joined < threads
          · cases hworker : pool.workers ⟨joined, hless⟩ with
            | ready =>
                exact ⟨_, _, .lock hmutex (congrArg _ hworker), trivial⟩
            | running task => exact ⟨_, _, .finish hworker, trivial⟩
            | returned =>
                refine ⟨_, _, .join hdestructor hless ?_, trivial⟩
                exact congrArg _ hworker
            | waiting =>
                -- `notify_all` has woken all that were waiting
                have hawake := h.awake (congrArg _ hdestructor) ⟨joined, hless⟩
                rw [hworker] at hawake
                cases hawake
          · refine ⟨_, _, .returns hdestructor ?_, trivial⟩
            exact Nat.le_of_not_lt hless

theorem begun_of_steps {pool next : ThreadPool Task threads}
    {event : PoolEvent Task threads} (hsteps : Steps pool event next)
    (hbegun : pool.destructor ≠ .idle) : next.destructor ≠ .idle := by
  cases hsteps <;> first | exact hbegun | nofun

/-- Every schedule leads the destructor to its end. -/
theorem destructor_returns {pool : ThreadPool Task threads} (h : pool.Sound)
    (hbegun : pool.destructor ≠ .idle) :
    ∃ later, Reaches step (fun _ event => event.Internal) pool later ∧
      later.destructor = .returned := by
  have hadvance : ∀ pool : ThreadPool Task threads,
      pool.Sound ∧ pool.destructor ≠ .idle → ¬ pool.destructor = .returned →
      ∃ event next, event.Internal ∧ step pool event = some next ∧
        (next.Sound ∧ next.destructor ≠ .idle) ∧
          remaining next < remaining pool := by
    intro pool hpool hreturned
    obtain ⟨event, next, hsteps, hinternal⟩ :=
      exists_steps hpool.1 hpool.2 hreturned
    exact ⟨event, next, hinternal, hsteps.step,
      ⟨steps_sound hpool.1 hsteps, begun_of_steps hsteps hpool.2⟩,
      steps_remaining hpool.1 hinternal hsteps⟩
  exact Reaches.of_measure remaining hadvance ⟨h, hbegun⟩

/-- However it is scheduled, the pool makes no more steps than this. -/
theorem internal_run_bounded {pool final : ThreadPool Task threads}
    {events : List (PoolEvent Task threads)} (h : pool.Sound)
    (hinternal : ∀ event ∈ events, event.Internal)
    (hrun : runFrom step pool events = some final) :
    events.length + final.remaining ≤ pool.remaining := by
  have hmeets : AllMeet step
      (fun before event => before.Sound ∧ event.Internal) pool events := by
    rw [allMeet_iff]
    intro before event later reached hevents hreached
    refine ⟨run_sound h hreached, hinternal event ?_⟩
    rw [hevents]
    exact List.mem_append_right _ List.mem_cons_self
  exact length_le_of_measure remaining
    (fun before event next hmeets hstep =>
      steps_remaining hmeets.1 hmeets.2 (steps_of_step hstep)) hmeets hrun

/-! ## Every task, once, in the order of the queue -/

theorem returned_sound {pool : ThreadPool Task threads} (h : pool.Sound)
    (hreturned : pool.destructor = .returned) :
    pool.inFlight = [] ∧
      ∀ worker, (pool.workers worker).hasReturned = true := by
  constructor
  · have hclosed := h.closed
    rw [hreturned, enqueuing] at hclosed
    rw [inFlight]
    split
    case h_1 hmutex =>
      rw [hmutex] at hclosed
      cases hclosed <;> contradiction
    case h_2 => rfl
  · intro worker
    refine h.joined worker ?_
    rw [hreturned]
    exact worker.isLt

theorem started_of_no_threads {pool : ThreadPool Task 0}
    {events : List (PoolEvent Task 0)}
    (hrun : runFrom step start events = some pool) : pool.started = [] := by
  have hpreserved : ∀ (before : ThreadPool Task 0) (event : PoolEvent Task 0)
      (next : ThreadPool Task 0), before.started = [] →
      step before event = some next → next.started = [] := by
    intro before event next h hstep
    cases steps_of_step hstep with
    | @take worker => exact worker.elim0
    | _ => exact h
  exact runFrom_invariant_of_step hpreserved hrun rfl

/--
At any time the tasks started are the first ones of the queue.  The destructor
returns, and has then left no task behind if there is a worker at all.
-/
theorem runs_every_task_iff {events : List (PoolEvent Task threads)}
    {pool : ThreadPool Task threads}
    (hrun : runFrom step start events = some pool) :
    pool.started <+: enqueued events ∧
      (pool.destructor ≠ .idle →
        ∃ later, Reaches step (fun _ event => event.Internal) pool later ∧
          later.destructor = .returned) ∧
      (pool.destructor = .returned →
        (pool.started = enqueued events ∧
            pool.finished.Perm (enqueued events) ↔
          0 < threads ∨ enqueued events = [])) := by
  have hsound := run_sound start_sound hrun
  have hhistory : pool.history = enqueued events := run_history hrun
  refine ⟨?_, destructor_returns hsound, fun hreturned => ?_⟩
  · rw [← hhistory, history, List.append_assoc]
    exact List.prefix_append _ _
  · obtain ⟨hflight, hworkers⟩ := returned_sound hsound hreturned
    rw [history, hflight, List.append_nil] at hhistory
    constructor
    · rintro ⟨hstarted, -⟩
      rcases threads.eq_zero_or_pos with rfl | hpos
      · exact .inr (hstarted ▸ started_of_no_threads hrun)
      · exact .inl hpos
    · intro hcondition
      have htasks : pool.tasks = [] := by
        rcases hcondition with hpos | hempty
        · exact (hsound.drained _ (hworkers ⟨0, hpos⟩)).2
        · rw [← hhistory] at hempty
          exact (List.append_eq_nil_iff.mp hempty).2
      rw [htasks, List.append_nil] at hhistory
      refine ⟨hhistory, ?_⟩
      have hbalanced := run_balanced hrun
      rw [Balanced, Finset.sum_eq_zero fun worker _ =>
        Worker.tasks_of_hasReturned (hworkers worker), add_zero] at hbalanced
      rw [← hhistory]
      exact (Multiset.coe_eq_coe.mp hbalanced).symm

/-- One worker runs a task that was enqueued before the destructor. -/
theorem runs_every_task_iff_one_worker :
    ∃ (events : List (PoolEvent String 1)) (pool : ThreadPool String 1),
      enqueued events = ["ping"] ∧ runFrom step start events = some pool ∧
        pool.destructor = .returned ∧ pool.started = enqueued events ∧
        pool.finished.Perm (enqueued events) :=
  ⟨[.enqueue "ping", .push, .lock 0, .inspect 0, .notifyOne none, .destroy,
      .finish 0, .lockToStop, .stop, .lock 0, .notifyAll, .inspect 0, .join,
      .join], _, rfl, rfl, rfl,
    ((runs_every_task_iff rfl).2.2 rfl).mpr (.inl Nat.one_pos)⟩

/-- With no workers the destructor returns and the task is never started. -/
theorem no_worker_leaves_task :
    ¬ ∀ (threads : Nat) (events : List (PoolEvent String threads))
      (pool : ThreadPool String threads),
      runFrom step start events = some pool →
        pool.destructor = .returned →
        pool.started = enqueued events ∧
          pool.finished.Perm (enqueued events) := by
  intro h
  have hrun := h 0 [.enqueue "ping", .push, .notifyOne none, .destroy,
    .lockToStop, .stop, .notifyAll, .join] _ rfl rfl
  exact List.cons_ne_nil _ _ hrun.1.symm

end ThreadPool
end Neroshop.Tools
