import Coop.Proofs.Scheduler.Origins
import Coop.Proofs.Scheduler.Runs
import Coop.Proofs.Stack.Stock
import Coop.Proofs.Thread.Totals

/-!
# Stacks are accounted for

The stacks that the pool lent are those of the live threads, and the one that is
kept aside.  Every step keeps it so: a stack changes hands, but it is never lost
and never counted twice.
-/

namespace Coop

open Thread (Block Handle Spec Table)

def Stack.sizeOf? : Option Stack → Nat
  | none => 0
  | some stack => stack.size

def Thread.Block.stackBytes {β : Type} (b : Block β) : Nat :=
  Stack.sizeOf? b.stack

theorem Stack.sizeOf?_eq_sum (stack : Option Stack) :
    Stack.sizeOf? stack = (stack.toList.map Stack.size).sum := by
  cases stack <;> rfl

namespace Thread.Table

variable {β : Type} {t t' : Table β}

def owned (t : Table β) : List Stack :=
  t.toList.flatMap fun entry => entry.2.stack.toList

theorem Keeps.owned (h : t.Keeps t') : t'.owned.Perm t.owned := by
  have howned : ∀ t : Table β, t.owned =
      (t.toList.map fun entry => (entry.1, entry.2.estate)).flatMap fun entry =>
        entry.2.stack.toList := by
    intro t
    rw [List.flatMap_map]
    rfl
  have hnodup : ∀ t : Table β, (t.toList.map fun entry => (entry.1, entry.2.estate)).Nodup := by
    intro t
    refine List.Nodup.of_map Prod.fst ?_
    rw [List.map_map]
    exact nodup_toList_fst t
  have hmem : ∀ (t : Table β) slot estate,
      (slot, estate) ∈ (t.toList.map fun entry => (entry.1, entry.2.estate)) ↔
        (t.get? slot).map Block.estate = some estate := by
    intro t slot estate
    simp [mem_toList]
  rw [howned t', howned t]
  refine List.Perm.flatMap_right _ ((List.perm_ext_iff_of_nodup (hnodup t') (hnodup t)).mpr ?_)
  rintro ⟨slot, estate⟩
  rw [hmem, hmem, h]

theorem Packed.owned_insert (ht : t.Packed) (b : Block β) :
    (t.insert b).2.owned.Perm (b.stack.toList ++ t.owned) :=
  (ht.toList_insert b).flatMap_right _

theorem owned_remove {slot : Nat} {b : Block β} (hget : t.get? slot = some b) :
    t.owned.Perm (b.stack.toList ++ (t.remove slot).2.owned) :=
  (toList_remove hget).flatMap_right _

theorem total_stackBytes (t : Table β) :
    t.total Block.stackBytes = (t.owned.map Stack.size).sum := by
  unfold total Table.owned
  induction t.toList with
  | nil => rfl
  | cons entry rest ih =>
      rw [List.map_cons, List.sum_cons, ih, List.flatMap_cons, List.map_append, List.sum_append,
        Block.stackBytes, Stack.sizeOf?_eq_sum]

end Thread.Table

namespace Outline

variable {β : Type} {o o' o'' : Outline β} {supply : Supply} {slot : Nat} {b : Block β}

/-- The bytes of the stacks that are out: those of live threads, and the retired one. -/
def lent (o : Outline β) : Nat :=
  o.table.total Block.stackBytes + Stack.sizeOf? o.graveyard

def Funded (o : Outline β) : Prop :=
  o.pool.Lends o.lent

def out (o : Outline β) : List Stack :=
  o.table.owned ++ o.graveyard.toList

theorem lent_eq_sum (o : Outline β) : o.lent = (o.out.map Stack.size).sum := by
  rw [lent, out, List.map_append, List.sum_append, Table.total_stackBytes, Stack.sizeOf?_eq_sum]

/-!
# How stacks change hands
-/

structure Holds (o o' : Outline β) : Prop where
  pool : o'.pool = o.pool
  out : o'.out.Perm o.out
  spawned : o'.counters.spawned = o.counters.spawned

/-- What an operation can do with stacks. -/
inductive Handover (supply : Supply) (o o' : Outline β) : Prop where
  | held : o.Holds o' → Handover supply o o'
  /-- The pool could not hand out a stack, and may have emptied its caches. -/
  | refused {bytes : Nat} {cause : Shortage} :
      (o.pool.allocateBytes supply.stack bytes).1 = .error cause →
        ({ o with pool := (o.pool.allocateBytes supply.stack bytes).2 } : Outline β).Holds o' →
          Handover supply o o'
  | lent {bytes : Nat} {stack : Stack} :
      (o.pool.allocateBytes supply.stack bytes).1 = .ok stack →
        o'.pool = (o.pool.allocateBytes supply.stack bytes).2 →
          o'.out.Perm (o.prepare stack :: o.out) →
            o'.counters.spawned = o.counters.spawned + 1 → Handover supply o o'
  | returned {stack : Stack} :
      o.out.Perm (stack :: o'.out) → o'.pool = o.pool.release supply.cache stack →
        o'.counters.spawned = o.counters.spawned → Handover supply o o'

namespace Holds

theorem refl (o : Outline β) : o.Holds o :=
  ⟨rfl, List.Perm.refl _, rfl⟩

theorem trans (h : o.Holds o') (h' : o'.Holds o'') : o.Holds o'' :=
  ⟨h'.pool.trans h.pool, h'.out.trans h.out, h'.spawned.trans h.spawned⟩

theorem of_keeps (h : o.Keeps o') : o.Holds o' := by
  refine ⟨h.pool, ?_, h.spawned⟩
  unfold Outline.out
  rw [h.graveyard]
  exact h.table.owned.append_right _

theorem adopt (hpacked : o.table.Packed) : o.Holds o.adopt :=
  ⟨rfl, (hpacked.owned_insert (.main o.nextId)).append_right _, rfl⟩

end Holds

theorem Handover.trans (h : Handover supply o o') (hholds : o'.Holds o'') :
    Handover supply o o'' := by
  cases h with
  | held hheld => exact .held (hheld.trans hholds)
  | refused hcause hheld => exact .refused hcause (hheld.trans hholds)
  | lent hstack hpool hout hspawned =>
      exact .lent hstack (hholds.pool.trans hpool) (hholds.out.trans hout)
        (hholds.spawned.trans hspawned)
  | returned hout hpool hspawned =>
      exact .returned (hout.trans (hholds.out.symm.cons _)) (hholds.pool.trans hpool)
        (hholds.spawned.trans hspawned)

theorem handover_release {stack : Option Stack} (hout : o.out.Perm (stack.toList ++ o'.out))
    (hpool : o'.pool = o.pool) (hspawned : o'.counters.spawned = o.counters.spawned) :
    Handover supply o (o'.release supply stack) := by
  cases stack with
  | none => exact .held ⟨hpool, hout.symm, hspawned⟩
  | some stack => exact .returned hout (congrArg (Pool.release · supply.cache stack) hpool) hspawned

theorem handover_reclaim (hget : o.table.get? slot = some b) :
    Handover supply o (o.reclaim supply slot b) := by
  have hout : o.out.Perm (b.stack.toList ++
      ({ o with table := (o.table.remove slot).2 } : Outline β).out) := by
    unfold Outline.out
    rw [← List.append_assoc]
    exact (Table.owned_remove hget).append_right _
  exact (handover_release hout rfl rfl).trans ⟨rfl, List.Perm.refl _, rfl⟩

theorem handover_bury (hget : o.table.get? slot = some b) :
    Handover supply o (o.bury supply slot b) := by
  have howned := Table.owned_remove hget
  unfold Outline.bury
  cases hstack : b.stack with
  | none =>
      rw [hstack] at howned
      exact .held ⟨rfl, howned.symm.append_right _, rfl⟩
  | some stack =>
      rw [hstack] at howned
      -- the stack of the thread takes the place of the one that was aside
      have hout : o.out.Perm (o.graveyard.toList ++
          ({ o.countExited with
            table := (o.table.remove slot).2, graveyard := some stack } : Outline β).out) :=
        calc
          List.Perm _ ([stack] ++ (o.table.remove slot).2.owned ++ o.graveyard.toList) :=
            howned.append_right _
          List.Perm _ (o.graveyard.toList ++ ([stack] ++ (o.table.remove slot).2.owned)) :=
            List.perm_append_comm
          List.Perm _ (o.graveyard.toList ++ ((o.table.remove slot).2.owned ++ [stack])) :=
            List.perm_append_comm.append_left _
      exact (handover_release hout rfl rfl).trans ⟨rfl, List.Perm.refl _, rfl⟩

theorem handover_enroll {o₁ : Outline β} (hpacked : o₁.table.Packed) {bytes : Nat} {spec : Spec}
    {body : β} {stack : Stack} (hstack : (o.pool.allocateBytes supply.stack bytes).1 = .ok stack)
    (hpool : o₁.pool = (o.pool.allocateBytes supply.stack bytes).2) (hout : o₁.out.Perm o.out)
    (hspawned : o₁.counters.spawned = o.counters.spawned) :
    Handover supply o (o₁.enroll (.fresh o.nextId (o.prepare stack) body spec)) := by
  have hinserted :=
    (hpacked.owned_insert (.fresh o.nextId (o.prepare stack) body spec)).append_right
      o₁.graveyard.toList
  have hready := (Table.keeps_modify (o₁.table.insert
    (.fresh o.nextId (o.prepare stack) body spec)).2 o₁.table.nextSlot (f := Block.ready)
      fun _ => rfl).owned.append_right o₁.graveyard.toList
  exact .lent hstack hpool ((hready.trans hinserted).trans (hout.cons _))
    (congrArg (· + 1) hspawned)

theorem Idle.handover {request : Request β} {result : Except Error (Answer β)}
    (hidle : Idle supply o request result o') : Handover supply o o' := by
  cases hidle with
  | failed => exact .held (.refl o)
  | noRoom _ => exact .held (.of_keeps (.reserve o supply))
  | noStack hcause => exact .refused hcause ⟨rfl, (Holds.of_keeps (.reserve o supply)).out, rfl⟩
  | noBody _ => exact .held (.refl o)
  | stayed _ => exact .held (.refl o)
  | polled => exact .held (.refl o)
  | settled =>
      refine handover_release ?_ rfl rfl
      unfold Outline.out
      rw [Option.toList_none, List.append_nil]
      exact List.perm_append_comm

theorem Step.handover {request : Request β} {result : Except Error (Answer β)} (ho : o.Sound)
    (hstep : o.Step supply request result o') : Handover supply o o' := by
  cases hstep with
  | idle hidle => exact hidle.handover
  | bootstrapped _ _ =>
      exact .held ((Holds.of_keeps (.reserve o supply)).trans
        (.adopt ((Alike.reserve o supply).sound ho).packed))
  | @spawned cur spec body stack _ _ hstack =>
      have halike :=
        (Alike.reserve o supply).allocate supply (o.config.stackSize spec.stackSize)
      exact handover_enroll (halike.sound ho).packed hstack rfl
        (Holds.of_keeps (.reserve o supply)).out rfl
  | took _ _ => exact .held (.of_keeps (.modify o _ fun _ => rfl))
  | @switched cur slot rest b c _ o₁ _ hget hleaves _ _ =>
      have hrun : o₁.Holds (o₁.dispatch slot rest) := .of_keeps (.dispatch o₁ slot rest)
      rcases hleaves.keeps with hkeeps | ⟨-, -, rfl⟩
      · exact .held ((Holds.of_keeps hkeeps).trans hrun)
      · exact (handover_bury hget).trans hrun
  | delivered _ _ hlookup _ _ _ => exact handover_reclaim (Table.lookup_eq_some_iff.mp hlookup).1
  | @detached cur target h _ _ _ _ => exact .held (.of_keeps (.modify o h.slot fun _ => rfl))
  | dropped _ hlookup _ _ => exact handover_reclaim (Table.lookup_eq_some_iff.mp hlookup).1
  | woken _ => exact .held (.of_keeps (.wakeAll o _))

/-!
# What was configured stays
-/

structure SameLimits (o o' : Outline β) : Prop where
  config : o'.config = o.config
  limit : o'.table.limit = o.table.limit
  budget : o'.pool.budget = o.pool.budget

namespace SameLimits

theorem trans (h : o.SameLimits o') (h' : o'.SameLimits o'') : o.SameLimits o'' :=
  ⟨h'.config.trans h.config, h'.limit.trans h.limit, h'.budget.trans h.budget⟩

theorem of_keeps (h : o.Keeps o') : o.SameLimits o' :=
  ⟨h.config, h.limit, congrArg Pool.budget h.pool⟩

theorem allocate (o : Outline β) (supply : Supply) (bytes : Nat) :
    o.SameLimits (o.allocate supply bytes) :=
  ⟨rfl, rfl, (o.pool.allocateBytes_frame supply.stack bytes).1⟩

theorem release (h : o.SameLimits o') (supply : Supply) (stack : Option Stack) :
    o.SameLimits (o'.release supply stack) := by
  cases stack with
  | none => exact h
  | some stack =>
      exact h.trans ⟨rfl, rfl, (o'.pool.release_frame supply.cache stack).1⟩

theorem store (o : Outline β) (b : Block β) : o.SameLimits (o.store b) :=
  ⟨rfl, o.table.limit_insert b, rfl⟩

theorem reclaim (o : Outline β) (supply : Supply) (slot : Nat) (b : Block β) :
    o.SameLimits (o.reclaim supply slot b) := by
  have hremoved : o.SameLimits { o with table := (o.table.remove slot).2 } :=
    ⟨rfl, o.table.limit_remove slot, rfl⟩
  exact (hremoved.release supply b.stack).trans ⟨rfl, rfl, rfl⟩

theorem bury (o : Outline β) (supply : Supply) (slot : Nat) (b : Block β) :
    o.SameLimits (o.bury supply slot b) := by
  have hremoved : ∀ graveyard, o.SameLimits
      { o.countExited with table := (o.table.remove slot).2, graveyard := graveyard } :=
    fun _ => ⟨rfl, o.table.limit_remove slot, rfl⟩
  unfold Outline.bury
  cases b.stack with
  | none => exact (hremoved o.graveyard).trans ⟨rfl, rfl, rfl⟩
  | some stack =>
      exact ((hremoved (some stack)).release supply o.graveyard).trans ⟨rfl, rfl, rfl⟩

end SameLimits

theorem Idle.sameLimits {request : Request β} {result : Except Error (Answer β)}
    (hidle : Idle supply o request result o') : o.SameLimits o' := by
  cases hidle with
  | failed => exact .of_keeps (.refl o)
  | noRoom _ => exact .of_keeps (.reserve o supply)
  | noStack _ => exact (SameLimits.of_keeps (.reserve o supply)).trans (.allocate _ supply _)
  | noBody _ => exact .of_keeps (.refl o)
  | stayed _ => exact .of_keeps (.refl o)
  | polled => exact .of_keeps (.refl o)
  | settled =>
      have hcleared : o.SameLimits { o with graveyard := none } := ⟨rfl, rfl, rfl⟩
      exact hcleared.release supply o.graveyard

theorem Step.sameLimits {request : Request β} {result : Except Error (Answer β)}
    (hstep : o.Step supply request result o') : o.SameLimits o' := by
  cases hstep with
  | idle hidle => exact hidle.sameLimits
  | bootstrapped _ _ =>
      exact (SameLimits.of_keeps (.reserve o supply)).trans
        ((SameLimits.store _ _).trans ⟨rfl, rfl, rfl⟩)
  | @spawned cur spec body stack _ _ hstack =>
      have hallocated := (SameLimits.of_keeps (.reserve o supply)).trans
        (.allocate _ supply (o.config.stackSize spec.stackSize))
      exact hallocated.trans ((SameLimits.store _ _).trans ⟨rfl, rfl, rfl⟩)
  | took _ _ => exact .of_keeps (.modify o _ fun _ => rfl)
  | @switched cur slot rest b c _ o₁ _ _ hleaves _ _ =>
      have hrun : o₁.SameLimits (o₁.dispatch slot rest) := .of_keeps (.dispatch o₁ slot rest)
      rcases hleaves.keeps with hkeeps | ⟨-, -, rfl⟩
      · exact (SameLimits.of_keeps hkeeps).trans hrun
      · exact (SameLimits.bury o supply cur b).trans hrun
  | delivered _ _ _ _ _ _ => exact .reclaim o supply _ _
  | @detached cur target h _ _ _ _ => exact .of_keeps (.modify o h.slot fun _ => rfl)
  | dropped _ _ _ _ => exact .reclaim o supply _ _
  | woken _ => exact .of_keeps (.wakeAll o _)

/-!
# The accounts are kept
-/

structure Accounted (o : Outline β) : Prop where
  funded : o.Funded
  tracks : o.pool.Tracks o.out
  returned : o.pool.inUse + o.pool.deallocated = o.counters.spawned

theorem size_prepare (o : Outline β) (stack : Stack) : (o.prepare stack).size = stack.size := by
  unfold prepare
  split <;> rfl

theorem serial_prepare (o : Outline β) (stack : Stack) :
    (o.prepare stack).serial = stack.serial := by
  unfold prepare
  split <;> rfl

theorem Handover.funded (h : Handover supply o o') (hfunded : o.Funded) : o'.Funded := by
  unfold Funded at hfunded ⊢
  rw [lent_eq_sum] at hfunded ⊢
  cases h with
  | held hheld =>
      rw [hheld.pool, (hheld.out.map Stack.size).sum_eq]
      exact hfunded
  | refused hcause hheld =>
      rw [hheld.pool, (hheld.out.map Stack.size).sum_eq]
      exact hfunded.allocateBytes_of_error hcause
  | @lent bytes stack hstack hpool hout hspawned =>
      have hlends := hfunded.allocateBytes hstack
      rw [hpool, (hout.map Stack.size).sum_eq, List.map_cons, List.sum_cons, size_prepare,
        Nat.add_comm]
      exact hlends
  | @returned stack hout hpool hspawned =>
      rw [(hout.map Stack.size).sum_eq, List.map_cons, List.sum_cons, Nat.add_comm] at hfunded
      rw [hpool]
      exact hfunded.release supply.cache

/-- The pool keeps track of the stacks that are out, and of any that others have from it. -/
theorem Handover.tracks_append (h : Handover supply o o') (others : List Stack)
    (htracks : o.pool.Tracks (o.out ++ others)) : o'.pool.Tracks (o'.out ++ others) := by
  cases h with
  | held hheld =>
      rw [hheld.pool]
      exact htracks.of_serials ((hheld.out.append_right others).map Stack.serial)
  | refused hcause hheld =>
      rw [hheld.pool]
      exact (htracks.allocateBytes_of_error hcause).of_serials
        ((hheld.out.append_right others).map Stack.serial)
  | @lent bytes stack hstack hpool hout hspawned =>
      have hserials := (hout.append_right others).map Stack.serial
      rw [List.cons_append, List.map_cons, serial_prepare] at hserials
      rw [hpool]
      exact (htracks.allocateBytes hstack).1.of_serials hserials
  | @returned stack hout hpool hspawned =>
      have hserials := (hout.append_right others).symm.map Stack.serial
      rw [hpool]
      exact (htracks.of_serials hserials).release supply.cache

theorem Handover.tracks (h : Handover supply o o') (htracks : o.pool.Tracks o.out) :
    o'.pool.Tracks o'.out := by
  have happend := h.tracks_append []
  rw [List.append_nil, List.append_nil] at happend
  exact happend htracks

theorem Handover.accounted (h : Handover supply o o') (haccounted : o.Accounted) :
    o'.Accounted where
  funded := h.funded haccounted.funded
  tracks := h.tracks haccounted.tracks
  returned := by
    have hreturned := haccounted.returned
    cases h with
    | held hheld => rw [hheld.pool, hheld.spawned, hreturned]
    | @refused bytes cause hcause hheld =>
        have hframe := o.pool.allocateBytes_frame supply.stack bytes
        have htracks := haccounted.tracks.allocateBytes_of_error hcause
        rw [hheld.pool, hheld.spawned]
        show (o.pool.allocateBytes supply.stack bytes).2.inUse + _ = o.counters.spawned
        rw [htracks.inUse, hframe.2, ← haccounted.tracks.inUse, hreturned]
    | @lent bytes stack hstack hpool hout hspawned =>
        have hframe := o.pool.allocateBytes_frame supply.stack bytes
        have htracks := (haccounted.tracks.allocateBytes hstack).1
        rw [hpool, hspawned, htracks.inUse, hframe.2, List.length_cons, ← haccounted.tracks.inUse,
          ← hreturned]
        omega
    | @returned stack hout hpool hspawned =>
        have hframe := o.pool.release_frame supply.cache stack
        have hinUse := haccounted.tracks.inUse
        have hlength := hout.length_eq
        rw [List.length_cons] at hlength
        rw [hpool, hspawned, hframe.2.1, hframe.2.2]
        omega

theorem Accounted.le_of_mem (h : o.Accounted) {stack : Stack} (hstack : stack ∈ o.out) :
    0 < o.pool.inUse ∧ stack.size ≤ o.pool.reserved := by
  have hfunded := h.funded
  rw [Funded, lent_eq_sum] at hfunded
  exact h.tracks.le_of_mem hfunded hstack

theorem accounted_create (config : Config) : (create config : Outline β).Accounted where
  funded := by
    unfold Funded Pool.Lends
    rw [Pool.cachedBytes_eq]
    rfl
  tracks :=
    { inUse := rfl
      distinct := List.nodup_nil
      issued := fun serial hserial => absurd hserial List.not_mem_nil
      sorted := by
        intro c stack hstack
        cases c <;> cases hstack
      withinBudget := fun budget _ => Nat.zero_le budget }
  returned := rfl

end Outline

/-!
# Every reachable scheduler
-/

namespace Scheduler

variable {β : Type} {s : Scheduler β}

theorem Shaped.limits_after {o : Outline β} (hs : s.Shaped o)
    (requests : List (Request β × Supply)) :
    (s.after requests).config = s.config ∧ (s.after requests).table.limit = s.table.limit ∧
      (s.after requests).pool.budget = s.pool.budget := by
  refine hs.preserved (Q := fun s' => s'.config = s.config ∧ s'.table.limit = s.table.limit ∧
    s'.pool.budget = s.pool.budget) ?_ ⟨rfl, rfl, rfl⟩ requests
  intro s' o' supply request hs' hlimits
  rcases hs'.perform supply request with ⟨o'', hstep, hs''⟩
  rcases hstep.sameLimits with ⟨hconfig, hlimit, hbudget⟩
  rw [hs'.1.config, hs''.1.config] at hconfig
  rw [hs'.1.table, hs''.1.table] at hlimit
  rw [hs'.1.pool, hs''.1.pool] at hbudget
  exact ⟨hconfig.trans hlimits.1, hlimit.trans hlimits.2.1, hbudget.trans hlimits.2.2⟩

theorem Reachable.limits (h : s.Reachable) :
    s.table.limit = s.config.maxThreads ∧ s.pool.budget = s.config.stackBudget := by
  rcases h with ⟨config, requests, rfl⟩
  rcases (shaped_create config).limits_after requests with ⟨hconfig, hlimit, hbudget⟩
  rw [hconfig, hlimit, hbudget]
  exact ⟨rfl, rfl⟩

theorem Reachable.accounted (h : s.Reachable) : ∃ o, s.Shaped o ∧ o.Accounted :=
  h.exists_outline Outline.accounted_create fun ho hstep haccounted =>
    (hstep.handover ho).accounted haccounted

theorem Reachable.cachedBytes_le (h : s.Reachable) : s.pool.cachedBytes ≤ s.pool.reserved := by
  rcases h.accounted with ⟨o, hs, haccounted⟩
  have hle := haccounted.funded.cachedBytes_le
  rw [hs.1.pool] at hle
  exact hle

end Scheduler

end Coop
