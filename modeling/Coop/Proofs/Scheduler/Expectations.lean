import Coop.Proofs.Scheduler.Departures
import Coop.Proofs.Scheduler.Funds

/-!
# Expectations are met

Each step of an operation records what it expected and did not find.  The invariants
say that it finds everything: a thread is queued when it stands in no queue, a queue
counts its members, a slot that is taken is vacant, and what is given back was lent.
So no step adds a fault to those recorded before.
-/

namespace Coop

open Thread (Block Handle Id Lane Queue Table)

namespace Thread.Queue

variable {β : Type} {lane : Lane} {q : Queue lane} {t : Table β} {slots : List Nat} {slot : Nat}

theorem pushFaults_eq_nil (h : (t.link lane slot).linked = false) :
    pushFaults t lane slot = [] := by
  rw [pushFaults, h]
  rfl

theorem removeFaults_eq_nil (q : Queue lane) (h : (t.link lane slot).linked = false) :
    q.removeFaults t slot = [] := by
  rw [removeFaults, h]
  rfl

theorem Holds.popFaults_eq_nil (h : q.Holds t slots) : q.popFaults t = [] := by
  unfold popFaults
  rw [h.head]
  cases slots with
  | nil => rfl
  | cons slot rest =>
      have hlen : 0 < q.len := by
        rw [h.len, List.length_cons]
        omega
      simp [removeFaults, Fault.unless, hlen]

end Thread.Queue

namespace Pool

variable {p : Pool} {lent : List Stack} {stack : Stack}

theorem allocateBytesFaults_eq_nil (h : p.cachedBytes ≤ p.reserved) (wanted : Nat) :
    p.allocateBytesFaults wanted = [] := by
  have htrim : p.trimFaults = [] := by
    rw [trimFaults, decide_eq_true h]
    rfl
  unfold allocateBytesFaults allocateFaults
  split
  · rfl
  · split
    · exact htrim
    · rfl

theorem releaseFaults_eq_nil (hinUse : 0 < p.inUse) (hreserved : stack.size ≤ p.reserved)
    (g : Growth) : p.releaseFaults g stack = [] := by
  simp [releaseFaults, Fault.unless, hinUse, hreserved]

end Pool

namespace Outline

variable {β : Type} {o o' : Outline β} {supply : Supply} {request : Request β}
  {result : Except Error (Answer β)}

structure Solid (o : Outline β) : Prop where
  sound : o.Sound
  roomy : o.table.Roomy
  accounted : o.Accounted

/-- The pool can take the stack back without counting below zero. -/
def Owed (o : Outline β) (stack : Option Stack) : Prop :=
  ∀ s, stack = some s → 0 < o.pool.inUse ∧ s.size ≤ o.pool.reserved

theorem Accounted.owed_block (h : o.Accounted) {slot : Nat} {b : Block β}
    (hget : o.table.get? slot = some b) : o.Owed b.stack := by
  intro s hs
  have howned : s ∈ o.table.owned :=
    List.mem_flatMap.mpr ⟨_, Table.mem_toList.mpr hget, Option.mem_toList.mpr hs⟩
  exact h.le_of_mem (List.mem_append_left _ howned)

theorem Accounted.owed_graveyard (h : o.Accounted) : o.Owed o.graveyard :=
  fun _ hs => h.le_of_mem (List.mem_append_right _ (Option.mem_toList.mpr hs))

end Outline

namespace Work

variable {β : Type} (w : Work β)

@[simp] theorem faults_count (f : Counters → Counters) : (w.count f).faults = w.faults := rfl

@[simp] theorem faults_notice (n : Notice) : (w.notice n).faults = w.faults := rfl

@[simp] theorem faults_modify (slot : Nat) (f : Block β → Block β) :
    (w.modify slot f).faults = w.faults := rfl

end Work

namespace Represents

variable {β : Type} {w : Work β} {o : Outline β} {slot : Nat} {b : Block β}

/-!
# Queues
-/

theorem faults_makeReady (h : Represents w.scheduler o) (hready : slot ∉ o.ready) :
    (w.makeReady slot).faults = w.faults := by
  have hunlinked : ((w.scheduler.table.modify slot Block.ready).link .ready slot).linked =
      false := by
    rw [Table.link_modify (f := Block.ready) fun _ => rfl]
    exact h.ready_unlinked hready
  show w.faults ++ Queue.pushFaults _ .ready slot = w.faults
  rw [Queue.pushFaults_eq_nil hunlinked, List.append_nil]

theorem faults_takeReady (h : Represents w.scheduler o) :
    w.takeReady.2.faults = w.faults := by
  show w.faults ++ w.scheduler.ready.popFaults w.scheduler.table = w.faults
  rw [(h.ready.holds ()).popFaults_eq_nil, List.append_nil]

theorem faults_unready (h : Represents w.scheduler o) (hready : slot ∉ o.ready) :
    (w.unready slot).2.faults = w.faults := by
  show w.faults ++ w.scheduler.ready.removeFaults w.scheduler.table slot = w.faults
  rw [Queue.removeFaults_eq_nil _ (h.ready_unlinked hready), List.append_nil]

theorem faults_park (h : Represents w.scheduler o) (line : Line)
    (hwaiting : ∀ line, slot ∉ o.waiting line) : (w.park slot line).faults = w.faults := by
  show w.faults ++ Queue.pushFaults w.scheduler.table .wait slot = w.faults
  rw [Queue.pushFaults_eq_nil (h.waiting.unlinked slot hwaiting), List.append_nil]

theorem faults_takeWaiter (h : Represents w.scheduler o) (line : Line) :
    (w.takeWaiter line).2.faults = w.faults := by
  show w.faults ++ (w.scheduler.waits.bucket line).popFaults w.scheduler.table = w.faults
  rw [(h.waiting.holds line).popFaults_eq_nil, List.append_nil]

/-!
# Slots
-/

theorem faults_reserve (w : Work β) (supply : Supply) : (w.reserve supply).2.faults = w.faults := by
  show w.faults ++ w.scheduler.table.reserveFaults = w.faults
  rw [Table.reserveFaults_eq_nil, List.append_nil]

theorem faults_insert (h : Represents w.scheduler o) (hpacked : o.table.Packed)
    (hreserved : o.table.isReserved = true) (b : Block β) : (w.insert b).2.faults = w.faults := by
  rw [h.table] at hpacked hreserved
  have hreserved' : w.scheduler.table.isReserved = true := by
    unfold Table.isReserved Table.bare at *
    rwa [Array.size_map] at hreserved
  show w.faults ++ w.scheduler.table.insertFaults = w.faults
  rw [(Table.Packed.of_bare hpacked).insertFaults_eq_nil hreserved', List.append_nil]

theorem faults_remove (h : Represents w.scheduler o) (hpacked : o.table.Packed)
    (hroom : o.table.Roomy) (slot : Nat) : (w.remove slot).2.faults = w.faults := by
  rw [h.table] at hpacked hroom
  have hroom' : w.scheduler.table.Roomy := by
    unfold Table.Roomy Table.bare at hroom
    rwa [Array.size_map] at hroom
  show w.faults ++ w.scheduler.table.removeFaults slot = w.faults
  rw [(Table.Packed.of_bare hpacked).removeFaults_eq_nil hroom', List.append_nil]

/-!
# Stacks
-/

theorem faults_allocate (hcached : w.scheduler.pool.cachedBytes ≤ w.scheduler.pool.reserved)
    (supply : Supply) (bytes : Nat) : (w.allocate supply bytes).2.faults = w.faults := by
  show w.faults ++ w.scheduler.pool.allocateBytesFaults bytes = w.faults
  rw [Pool.allocateBytesFaults_eq_nil hcached, List.append_nil]

theorem faults_releaseAny (h : Represents w.scheduler o) {stack : Option Stack}
    (howed : o.Owed stack) (supply : Supply) : (w.releaseAny supply stack).faults = w.faults := by
  cases stack with
  | none => rfl
  | some stack =>
      rcases howed stack rfl with ⟨hinUse, hreserved⟩
      rw [h.pool] at hinUse hreserved
      show w.faults ++ w.scheduler.pool.releaseFaults supply.cache stack = w.faults
      rw [Pool.releaseFaults_eq_nil hinUse hreserved, List.append_nil]

theorem faults_checkStack (w : Work β) (slot : Nat) : (w.checkStack slot).faults = w.faults := by
  unfold Work.checkStack
  split
  · rfl
  · split <;> rfl

theorem faults_retire (h : Represents w.scheduler o) (howed : o.Owed o.graveyard) (supply : Supply)
    (stack : Stack) : (w.retire supply stack).faults = w.faults := by
  have haside : Represents (w.update fun s => { s with graveyard := some stack }).scheduler
      { o with graveyard := some stack } := { h with graveyard := rfl }
  show (Work.releaseAny _ supply w.scheduler.graveyard).faults = w.faults
  rw [← h.graveyard]
  exact faults_releaseAny haside howed supply

/-!
# Ends of threads, and changes of the running thread
-/

theorem faults_reclaim (h : Represents w.scheduler o) (hpacked : o.table.Packed)
    (hroom : o.table.Roomy) (hget : o.table.get? slot = some b) (hready : slot ∉ o.ready)
    (hwaiting : ∀ line, slot ∉ o.waiting line) (howed : o.Owed b.stack) (supply : Supply) :
    (w.reclaim supply slot).faults = w.faults := by
  rcases h.remove hget hready hwaiting with ⟨b', hb', hbare, hremoved⟩
  have hfirst : w.remove slot = (some b', (w.remove slot).2) := by
    rw [← hb']
  have hstack : b'.stack = b.stack := by
    rw [← hbare]
    rfl
  unfold Work.reclaim
  rw [hfirst]
  simp only
  rw [hstack]
  exact (hremoved.faults_releaseAny howed supply).trans (h.faults_remove hpacked hroom slot)

theorem faults_bury (h : Represents w.scheduler o) (hpacked : o.table.Packed)
    (hroom : o.table.Roomy) (hget : o.table.get? slot = some b) (hready : slot ∉ o.ready)
    (hwaiting : ∀ line, slot ∉ o.waiting line) (howed : o.Owed o.graveyard) (supply : Supply) :
    (w.bury supply slot).faults = w.faults := by
  rcases h.remove hget hready hwaiting with ⟨b', hb', hbare, hremoved⟩
  have hfirst : w.remove slot = (some b', (w.remove slot).2) := by
    rw [← hb']
  have hremove := h.faults_remove hpacked hroom slot
  unfold Work.bury
  rw [hfirst]
  simp only
  cases b'.stack with
  | none => exact hremove
  | some stack => exact (hremoved.faults_retire howed supply stack).trans hremove

theorem faults_wakeJoiner (h : Represents w.scheduler o) (id : Id) {joiner : Option Handle}
    (hready : ∀ j, joiner = some j → j.slot ∉ o.ready) :
    (w.wakeJoiner id joiner).faults = w.faults := by
  cases joiner with
  | none => rfl
  | some j =>
      unfold Work.wakeJoiner
      simp only
      split
      · exact h.faults_makeReady (hready j rfl)
      · rfl

theorem faults_dispatch (h : Represents w.scheduler o) (source : Handle) :
    (w.dispatch source).faults = w.faults := by
  have htaken := h.faults_takeReady
  unfold Work.dispatch
  generalize w.takeReady = taken at htaken
  rcases taken with ⟨first, w'⟩
  cases first with
  | none => exact htaken
  | some slot =>
      simp only
      split <;> exact htaken

/-!
# Waking the waiters of lines
-/

theorem faults_drain {runner : Option Nat} (h : Represents w.scheduler o) (ho : o.Orderly runner)
    (line : Line) (fuel : Nat) : (w.drain line fuel).2.faults = w.faults := by
  induction fuel generalizing w o with
  | zero => rfl
  | succ fuel ih =>
      cases hwaiting : o.waiting line with
      | nil =>
          have hhead : (w.scheduler.waits.bucket line).head = none := by
            rw [(h.waiting.holds line).head, hwaiting]
            rfl
          rw [Work.drain, Work.takeWaiter_of_head hhead]
      | cons slot rest =>
          rcases h.wakeFirst ho hwaiting with ⟨hfirst, hready, hunparked, hwoken⟩
          rw [Work.drain, hfirst]
          have hrest := ih hwoken (ho.wakeFirst line)
          rw [hunparked.faults_makeReady hready] at hrest
          exact hrest.trans (h.faults_takeWaiter line)

theorem faults_fire {runner : Option Nat} (h : Represents w.scheduler o) (ho : o.Orderly runner)
    (line : Line) : (Scheduler.fire w line).2.faults = w.faults := by
  have hwake : (w.wake line).2.faults = w.faults := h.faults_drain ho line _
  unfold Scheduler.fire
  simp only
  split <;> exact hwake

theorem faults_fireAll {runner : Option Nat} (h : Represents w.scheduler o) (ho : o.Orderly runner)
    (lines : List Line) : (Scheduler.fireAll lines w).2.faults = w.faults := by
  induction lines generalizing w o with
  | nil => rfl
  | cons line lines ih =>
      exact (ih (h.fire ho line).2 (ho.wake line)).trans (h.faults_fire ho line)

end Represents
end Coop
