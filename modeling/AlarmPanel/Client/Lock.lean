/-!
# Locks

A lock has one holder, and those who wait for it get it in the order in which they asked. Whoever holds a
lock or waits for one is a strand of work: a branch of a task. A task that is given up gives up what all
its strands hold and ask for.
-/

namespace AlarmPanel

/-- A strand of work: a task, by its place in the list of tasks, and one of the branches that it carries
on side by side. -/
structure Strand where
  task : Nat
  branch : Nat
  deriving DecidableEq, Repr

structure Lock where
  holder : Option Strand
  /-- Those who wait, the first of them first. -/
  queue : List Strand
  deriving DecidableEq, Repr

namespace Lock

/-- A lock that nobody holds. -/
def free : Lock := ⟨none, []⟩

/-- The strand asks for the lock: it holds it at once if the lock is free, else it waits. -/
def ask (strand : Strand) (lock : Lock) : Lock :=
  match lock.holder with
  | none => ⟨some strand, lock.queue⟩
  | some _ => ⟨lock.holder, lock.queue ++ [strand]⟩

/-- The lock passes to the first of those who wait. -/
def release (lock : Lock) : Lock := ⟨lock.queue.head?, lock.queue.tail⟩

/-- The strands of a task neither hold the lock nor wait for it any longer. -/
def withdraw (task : Nat) (lock : Lock) : Lock :=
  let others := lock.queue.filter (·.task ≠ task)
  match lock.holder with
  | some strand => if strand.task = task then release ⟨none, others⟩ else ⟨some strand, others⟩
  | none => ⟨none, others⟩

/-- A lock that nobody holds has nobody waiting for it. -/
def Fair (lock : Lock) : Prop := lock.holder = none → lock.queue = []

theorem fair_free : free.Fair := fun _ => rfl

theorem fair_ask (lock : Lock) (strand : Strand) : (lock.ask strand).Fair := by
  cases h : lock.holder <;> simp [ask, h, Fair]

theorem fair_release (lock : Lock) : lock.release.Fair := by
  intro h
  simp only [release, List.head?_eq_none_iff] at h
  simp [release, h]

end Lock

end AlarmPanel
