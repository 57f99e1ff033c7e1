import Coop.Proofs.Scheduler.Funds
import Coop.Proofs.Scheduler.Handles

/-!
# No stack is lost or counted twice

At any time a stack that the pool holds is with one live thread, or is kept aside, or
is in one cache.  The counts of the pool and of the scheduler agree with this, so when
all threads that were spawned are gone the pool has lent nothing.
-/

namespace Coop

open Thread (Block Handle Id Spec Table)

/--
The stack that a thread has by the request it began with: the main thread has none,
and any other has one of the size it asked for.
-/
inductive Config.Provides {β : Type} (config : Config) : Request β → Option Stack → Prop where
  | main : Provides config .bootstrap none
  | spawned {spec : Spec} {body : β} {stack : Stack} :
      stack.sizeClass.Fits (config.stackSize spec.stackSize) →
        Provides config (.spawn spec body) (some stack)

namespace Outline

variable {β : Type} {o o' : Outline β} {supply : Supply} {request : Request β}
  {result : Except Error (Answer β)}

theorem Begins.provides {b : Block β} (htracks : o.pool.Tracks o.out)
    (hbegins : o.Begins supply request b) : o.config.Provides request b.stack := by
  cases hbegins with
  | main => exact .main
  | @fresh spec body stack hstack =>
      have hclass := SizeClass.fits_of_holding? (htracks.allocateBytes hstack).2
      refine .spawned ?_
      unfold prepare
      split <;> exact hclass

end Outline

namespace Scheduler

variable {β : Type} {s : Scheduler β} {o : Outline β}

def out (s : Scheduler β) : List Stack :=
  s.table.owned ++ s.graveyard.toList

theorem Shaped.out_perm (hs : s.Shaped o) : o.out.Perm s.out := by
  have hbare : s.table.Keeps s.table.bare := by
    intro slot
    rw [Table.get?_bare, Option.map_map]
    rfl
  unfold Outline.out out
  rw [hs.1.table, hs.1.graveyard]
  exact hbare.owned.append_right _

theorem scheduler_completeSwitch (s : Scheduler β) (supply : Supply) :
    (s.perform supply .completeSwitch).scheduler.table = s.table ∧
      (s.perform supply .completeSwitch).scheduler.graveyard = none := by
  simp only [Scheduler.perform, completeSwitch]
  cases hgraveyard : s.graveyard with
  | none => exact ⟨rfl, hgraveyard⟩
  | some stack => exact ⟨rfl, rfl⟩

/-!
# The books of a reachable scheduler
-/

theorem Reachable.lends (h : s.Reachable) : s.pool.Lends (s.out.map Stack.size).sum := by
  rcases h.accounted with ⟨o, hs, haccounted⟩
  have hfunded := haccounted.funded
  rwa [Outline.Funded, Outline.lent_eq_sum, (hs.out_perm.map Stack.size).sum_eq, hs.1.pool]
    at hfunded

theorem Reachable.reserved_eq (h : s.Reachable) :
    s.pool.reserved = (s.out.map Stack.size).sum + (s.pool.stock.map Stack.size).sum := by
  have hlends := h.lends
  rwa [Pool.Lends, Pool.cachedBytes_eq_sum, Nat.add_comm] at hlends

theorem Reachable.tracks (h : s.Reachable) : s.pool.Tracks s.out := by
  rcases h.accounted with ⟨o, hs, haccounted⟩
  have htracks := haccounted.tracks.of_serials (hs.out_perm.symm.map Stack.serial)
  rwa [hs.1.pool] at htracks

theorem Reachable.returned (h : s.Reachable) :
    s.pool.inUse + s.pool.deallocated = s.counters.spawned := by
  rcases h.accounted with ⟨o, hs, haccounted⟩
  have hreturned := haccounted.returned
  rwa [hs.1.pool, hs.1.counters] at hreturned

end Scheduler
end Coop
