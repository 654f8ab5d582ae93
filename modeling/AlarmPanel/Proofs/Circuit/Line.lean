import Mathlib.Logic.Function.Basic
import AlarmPanel.Client.Task

/-!
# The line for the connect lock

Those who have asked for the connect lock stand in line in the order in which they asked, and the first of
them holds it. While the strands are where the lock has them (`Orderly`), those in the line are those that have
asked and are not through, and all of them but the first are queued. So whoever checks the link, dials, has a
dial to make known or pauses holds the lock, and there is only one of them.
-/

namespace AlarmPanel

namespace Lock

/-- Those who have asked for the lock, the holder first. -/
def line (lock : Lock) : List Strand := lock.holder.toList ++ lock.queue

variable {lock : Lock}

theorem head?_line (h : lock.Fair) : lock.line.head? = lock.holder := by
  rcases lock with ⟨_ | holder, queue⟩
  · rw [line, h rfl]
    rfl
  · rfl

/-- While somebody stands in line, somebody holds the lock. -/
theorem holder_ne_none (h : lock.Fair) {strand : Strand} (hmem : strand ∈ lock.line) : lock.holder ≠ none := by
  intro hfree
  rw [line, hfree, h hfree] at hmem
  cases hmem

theorem line_ask (h : lock.Fair) (strand : Strand) : (lock.ask strand).line = lock.line ++ [strand] := by
  rcases lock with ⟨_ | holder, queue⟩
  · obtain rfl : queue = [] := h rfl
    rfl
  · rfl

theorem line_release (h : lock.Fair) : lock.release.line = lock.line.tail := by
  rcases lock with ⟨_ | holder, queue⟩
  · obtain rfl : queue = [] := h rfl
    rfl
  · cases queue <;> rfl

theorem line_withdraw (h : lock.Fair) (task : Nat) :
    (lock.withdraw task).line = lock.line.filter (·.task ≠ task) := by
  rcases lock with ⟨_ | holder, queue⟩
  · obtain rfl : queue = [] := h rfl
    rfl
  · by_cases hholder : holder.task = task
    · have hrelease : (release ⟨some holder, queue.filter (·.task ≠ task)⟩).line =
          queue.filter (·.task ≠ task) := line_release nofun
      simpa [withdraw, hholder, line, release] using hrelease
    · simp [withdraw, hholder, line]

theorem fair_withdraw (h : lock.Fair) (task : Nat) : (lock.withdraw task).Fair := by
  rcases lock with ⟨_ | holder, queue⟩
  · obtain rfl : queue = [] := h rfl
    exact fun _ => rfl
  · by_cases hholder : holder.task = task
    · simp only [withdraw, hholder, if_true]
      exact fair_release _
    · simp only [withdraw, hholder, if_false]
      exact nofun

end Lock

/-- Where the strands stand fits the lock: in the line are those that have asked and are not through, and all
but the first of them are queued. -/
structure Orderly (lock : Lock) (places : Strand → Option ConnectPlace) : Prop where
  fair : lock.Fair
  nodup : lock.line.Nodup
  mem_line : ∀ strand, strand ∈ lock.line ↔ ∃ place, places strand = some place ∧ place ≠ .asking
  queued : ∀ strand ∈ lock.line.tail, places strand = some .queued

namespace Orderly

variable {lock : Lock} {places : Strand → Option ConnectPlace} {strand : Strand}

theorem free : Orderly Lock.free fun _ => none where
  fair := Lock.fair_free
  nodup := List.nodup_nil
  mem_line _ := ⟨nofun, nofun⟩
  queued _ := nofun

/-- Whoever is further than the queue holds the lock. -/
theorem holder_of_inside (h : Orderly lock places) {place : ConnectPlace} (hplace : places strand = some place)
    (hasks : place ≠ .asking) (hqueued : place ≠ .queued) : lock.holder = some strand := by
  have hmem : strand ∈ lock.line := (h.mem_line strand).mpr ⟨place, hplace, hasks⟩
  rw [← Lock.head?_line h.fair]
  cases hline : lock.line with
  | nil => rw [hline] at hmem; cases hmem
  | cons first rest =>
    rw [hline] at hmem
    rcases List.mem_cons.mp hmem with rfl | hrest
    · rfl
    · have hwaits := h.queued strand (by rw [hline]; exact hrest)
      rw [hplace] at hwaits
      exact absurd (Option.some.inj hwaits) hqueued

/-- Whoever leaves the line holds the lock. -/
theorem holder_of_leave (h : Orderly lock places) {place : ConnectPlace} (hplace : places strand = some place)
    (hasks : place ≠ .asking) (hqueued : place = .queued → lock.holder = some strand) :
    lock.holder = some strand := by
  by_cases h' : place = .queued
  · exact hqueued h'
  · exact h.holder_of_inside hplace hasks h'

/-- The line with the holder of the lock at its head. -/
theorem exists_line (h : Orderly lock places) (hholds : lock.holder = some strand) :
    ∃ rest, lock.line = strand :: rest ∧ strand ∉ rest ∧ rest.Nodup := by
  have hhead : lock.line.head? = some strand := (Lock.head?_line h.fair).trans hholds
  obtain ⟨rest, hline⟩ := List.head?_eq_some_iff.mp hhead
  have hnodup := h.nodup
  rw [hline, List.nodup_cons] at hnodup
  exact ⟨rest, hline, hnodup⟩

theorem ask (h : Orderly lock places) (hasks : places strand = some .asking) :
    Orderly (lock.ask strand) (Function.update places strand (some .queued)) := by
  have hline := Lock.line_ask h.fair strand
  have hnew : strand ∉ lock.line := by
    rintro hmem
    obtain ⟨place, hplace, hne⟩ := (h.mem_line strand).mp hmem
    exact hne (Option.some.inj (hplace.symm.trans hasks))
  refine ⟨Lock.fair_ask lock strand, ?_, fun other => ?_, fun other hother => ?_⟩
  · rw [hline, List.nodup_append]
    refine ⟨h.nodup, by simp, fun a ha b hb heq => hnew ?_⟩
    rwa [← List.mem_singleton.mp hb, ← heq]
  · rw [hline, List.mem_append, List.mem_singleton]
    by_cases hother : other = strand
    · simp [hother]
    · simp [hother, h.mem_line]
  · by_cases heq : other = strand
    · rw [heq, Function.update_self]
    · rw [Function.update_of_ne heq]
      rw [hline] at hother
      have hmem : other ∈ lock.line.tail ++ [strand] := by
        cases hl : lock.line with
        | nil => rw [hl] at hother; cases hother
        | cons first rest => rw [hl] at hother; exact hother
      exact h.queued other ((List.mem_append.mp hmem).resolve_right fun hlast =>
        heq (List.mem_singleton.mp hlast))

/-- The holder of the lock goes on to another place. -/
theorem move (h : Orderly lock places) (hholds : lock.holder = some strand) {place : ConnectPlace}
    (hplace : place ≠ .asking) : Orderly lock (Function.update places strand (some place)) := by
  obtain ⟨rest, hline, hnew, -⟩ := h.exists_line hholds
  refine ⟨h.fair, h.nodup, fun other => ?_, fun other hother => ?_⟩
  · by_cases heq : other = strand
    · simp [heq, hline, hplace]
    · rw [Function.update_of_ne heq]
      exact h.mem_line other
  · rw [Function.update_of_ne]
    · exact h.queued other hother
    · rintro rfl
      rw [hline] at hother
      exact hnew hother

/-- The holder of the lock is through, and the next one gets the lock. -/
theorem release (h : Orderly lock places) (hholds : lock.holder = some strand) :
    Orderly lock.release (Function.update places strand none) := by
  obtain ⟨rest, hline, hnew, hnodup⟩ := h.exists_line hholds
  have hrelease : lock.release.line = rest := by rw [Lock.line_release h.fair, hline, List.tail_cons]
  refine ⟨Lock.fair_release lock, by rwa [hrelease], fun other => ?_, fun other hother => ?_⟩
  · rw [hrelease]
    by_cases heq : other = strand
    · simp [heq, hnew]
    · rw [Function.update_of_ne heq, ← h.mem_line, hline, List.mem_cons, or_iff_right heq]
  · rw [hrelease] at hother
    have hmem : other ∈ rest := List.mem_of_mem_tail hother
    have hne : other ≠ strand := fun heq => hnew (heq ▸ hmem)
    rw [Function.update_of_ne hne]
    exact h.queued other (by rwa [hline])

/-- Whoever holds the lock has asked for it. -/
theorem place_of_holder (h : Orderly lock places) (hholds : lock.holder = some strand) :
    ∃ place, places strand = some place ∧ place ≠ .asking := by
  obtain ⟨rest, hline, -⟩ := h.exists_line hholds
  exact (h.mem_line strand).mp (hline ▸ List.mem_cons_self)

/-- Whoever holds the lock after a strand has asked for it held it before, or is this strand. -/
theorem holder_of_ask (h : Orderly lock places) (hasks : places strand = some .asking) {holder : Strand}
    (hholder : (lock.ask strand).holder = some holder) :
    holder = strand ∨ holder ≠ strand ∧ lock.holder = some holder := by
  cases hbefore : lock.holder with
  | none =>
    rw [Lock.ask, hbefore] at hholder
    exact .inl (Option.some.inj hholder).symm
  | some first =>
    rw [Lock.ask, hbefore] at hholder
    obtain rfl : first = holder := Option.some.inj hholder
    obtain ⟨place, hplace, hne⟩ := h.place_of_holder hbefore
    refine .inr ⟨fun heq => hne ?_, rfl⟩
    rw [heq] at hplace
    exact Option.some.inj (hplace.symm.trans hasks)

/-- Whoever gets the lock has been queued for it. -/
theorem queued_of_release (h : Orderly lock places) (hholds : lock.holder = some strand) {next : Strand}
    (hnext : lock.release.holder = some next) : Function.update places strand none next = some .queued := by
  obtain ⟨rest, hline, hnew, -⟩ := h.exists_line hholds
  have hmem : next ∈ rest := by
    refine List.mem_of_mem_head? ?_
    have hhead := Lock.head?_line (Lock.fair_release lock)
    rw [Lock.line_release h.fair, hline, List.tail_cons] at hhead
    exact hhead.trans hnext
  have hne : next ≠ strand := fun heq => hnew (heq ▸ hmem)
  rw [Function.update_of_ne hne]
  exact h.queued next (by rwa [hline])

/-- A task whose strands were nowhere begins to ask. -/
theorem begin (h : Orderly lock places) {task : Nat} {next : Nat → Option ConnectPlace}
    (hnowhere : ∀ strand, strand.task = task → places strand = none)
    (hnext : ∀ branch, next branch = none ∨ next branch = some .asking) :
    Orderly lock fun strand => if strand.task = task then next strand.branch else places strand := by
  have hout (other : Strand) (hother : other.task = task) : other ∉ lock.line := by
    rw [h.mem_line, hnowhere other hother]
    exact nofun
  refine ⟨h.fair, h.nodup, fun other => ?_, fun other hother => ?_⟩
  · by_cases heq : other.task = task
    · rw [if_pos heq]
      refine ⟨fun hmem => absurd hmem (hout other heq), fun ⟨place, hplace, hne⟩ => ?_⟩
      rcases hnext other.branch with hnone | hasks
      · rw [hnone] at hplace
        cases hplace
      · exact absurd (Option.some.inj (hplace.symm.trans hasks)) hne
    · rw [if_neg heq]
      exact h.mem_line other
  · rw [if_neg fun heq => hout other heq (List.mem_of_mem_tail hother)]
    exact h.queued other hother

/-- The strands of a task leave the line. -/
theorem withdraw (h : Orderly lock places) (task : Nat) :
    Orderly (lock.withdraw task) fun strand => if strand.task = task then none else places strand := by
  have hline := Lock.line_withdraw h.fair task
  refine ⟨Lock.fair_withdraw h.fair task, ?_, fun other => ?_, fun other hother => ?_⟩
  · rw [hline]
    exact h.nodup.filter _
  · rw [hline, List.mem_filter, h.mem_line]
    by_cases heq : other.task = task <;> simp [heq]
  · have hstays : other.task ≠ task := by
      rw [hline] at hother
      simpa using (List.mem_filter.mp (List.mem_of_mem_tail hother)).2
    rw [if_neg hstays]
    rw [hline] at hother
    refine h.queued other ?_
    cases hl : lock.line with
    | nil => rw [hl] at hother; cases hother
    | cons first rest =>
      rw [hl, List.filter_cons] at hother
      split at hother
      next => exact (List.mem_filter.mp hother).1
      next => exact (List.mem_filter.mp (List.mem_of_mem_tail hother)).1

/-- Whoever holds the lock after a task has left the line held it before, or was queued for it. -/
theorem holder_of_withdraw (h : Orderly lock places) {task : Nat} {next : Strand}
    (hnext : (lock.withdraw task).holder = some next) :
    next.task ≠ task ∧ (lock.holder = some next ∨ places next = some .queued) := by
  have hmem : next ∈ (lock.withdraw task).line := by
    refine List.mem_of_mem_head? ?_
    exact (Lock.head?_line (Lock.fair_withdraw h.fair task)).trans hnext
  rw [Lock.line_withdraw h.fair, List.mem_filter] at hmem
  refine ⟨by simpa using hmem.2, ?_⟩
  cases hline : lock.line with
  | nil => rw [hline] at hmem; cases hmem.1
  | cons first rest =>
    rw [hline] at hmem
    rcases List.mem_cons.mp hmem.1 with rfl | hrest
    · exact .inl (by rw [← Lock.head?_line h.fair, hline, List.head?_cons])
    · exact .inr (h.queued next (by rwa [hline]))

end Orderly

end AlarmPanel
