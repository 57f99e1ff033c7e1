import Coop.Proofs.Scheduler.Canonical
import Coop.Proofs.Scheduler.Funds

/-!
# Failures

An operation that fails leaves the scheduler as it met it, up to spare room.  Its
step leaves the same outline, and a scheduler is determined by its outline, down
to the last link.  The one thing that a failure can cost are the cached stacks: they
are given up when there is no memory for another stack.
-/

namespace Coop

open Thread (Block Handle Spec Table)

namespace Scheduler

variable {β : Type}

/-- The second scheduler is the first one, with other spare room in its table. -/
def SameUpToRoom (s s' : Scheduler β) : Prop :=
  ∃ slotRoom vacantRoom,
    s' = { s with table := { s.table with slotRoom := slotRoom, vacantRoom := vacantRoom } }

inductive Futile : Request β → Except Error (Answer β) → Prop where
  | failed {request : Request β} {e : Error} : Futile request (.error e)
  | stayed : Futile .yield (.ok .done)
  | polled {h : Handle} : Futile (.tryJoin h) (.ok .done)

/-- An operation does its work, or it changes nothing that matters. -/
structure FailsCleanly (s : Scheduler β) : Prop where
  /-- Only a spawn that is refused a stack can change more than spare room. -/
  futile : ∀ supply request, Futile request (s.perform supply request).result →
    s.SameUpToRoom (s.perform supply request).scheduler ∨
      ∃ spec body wanted pool, request = .spawn spec body ∧
        (s.perform supply request).result = .error (.shortage (.stack wanted)) ∧
          s.pool.Trimmed pool ∧
            { s with pool := pool }.SameUpToRoom (s.perform supply request).scheduler
  refused : ∀ granted wanted cause, (s.pool.allocateBytes granted wanted).1 = .error cause →
    (s.pool.allocateBytes granted wanted).2 = s.pool ∨
      cause = .stack wanted ∧ s.pool.Trimmed (s.pool.allocateBytes granted wanted).2
  departed : ∀ supply request caller w, s.running = .ok caller →
    s.Departs supply caller request w →
      s.perform supply request = (w.dispatch caller).map .transfer ∧
        ∃ t, (w.dispatch caller).result = .ok t

end Scheduler

/-!
# Idle steps leave the same scheduler
-/

namespace Represents

variable {β : Type} {s s' : Scheduler β} {o o' : Outline β} {supply : Supply}

theorem withRoom (h : Represents s o) (slotRoom vacantRoom : Nat) :
    Represents { s with table := { s.table with slotRoom := slotRoom, vacantRoom := vacantRoom } }
      { o with table := { o.table with slotRoom := slotRoom, vacantRoom := vacantRoom } } := by
  have hsame := h.withTable
    (t := { s.table with slotRoom := slotRoom, vacantRoom := vacantRoom }) fun _ _ => rfl
  rw [h.table]
  exact hsame

theorem withPool (h : Represents s o) (pool : Pool) :
    Represents { s with pool := pool } { o with pool := pool } :=
  { h with pool := rfl }

theorem sameUpToRoom_of_reserve (h : Represents s o) (h' : Represents s' (o.reserve supply)) :
    s.SameUpToRoom s' := by
  rcases Table.snd_reserve o.table supply.slots supply.vacant with ⟨slotRoom, vacantRoom, hroom⟩
  rw [Outline.reserve, hroom] at h'
  exact ⟨slotRoom, vacantRoom, (h.withRoom slotRoom vacantRoom).unique h'⟩

theorem sameUpToRoom_of_allocate (h : Represents s o) {bytes : Nat}
    (h' : Represents s' ((o.reserve supply).allocate supply bytes)) :
    { s with pool := (s.pool.allocateBytes supply.stack bytes).2 }.SameUpToRoom s' := by
  have hpool : ((o.reserve supply).allocate supply bytes) =
      { o with pool := (s.pool.allocateBytes supply.stack bytes).2 }.reserve supply := by
    rw [← h.pool]
    rfl
  rw [hpool] at h'
  exact (h.withPool _).sameUpToRoom_of_reserve h'

end Represents

namespace Scheduler

variable {β : Type} {s : Scheduler β} {o o' : Outline β}

theorem SameUpToRoom.refl (s : Scheduler β) : s.SameUpToRoom s :=
  ⟨s.table.slotRoom, s.table.vacantRoom, rfl⟩

/-- A futile operation has done no more than to ask for memory. -/
theorem Futile.idle {supply : Supply} {request : Request β} {result : Except Error (Answer β)}
    (h : Futile request result) (hstep : o.Step supply request result o') :
    o.Idle supply request result o' := by
  cases hstep with
  | idle hidle => exact hidle
  | bootstrapped _ _ => cases h
  | spawned _ _ _ => cases h
  | took _ _ => cases h
  | switched _ _ _ _ _ => cases h
  | delivered _ _ _ _ _ _ => cases h
  | detached _ _ _ _ => cases h
  | dropped _ _ _ _ => cases h
  | woken _ => cases h

theorem Reachable.refused (h : s.Reachable) {granted : Bool} {wanted : Nat} {cause : Shortage}
    (hcause : (s.pool.allocateBytes granted wanted).1 = .error cause) :
    (s.pool.allocateBytes granted wanted).2 = s.pool ∨
      cause = .stack wanted ∧ s.pool.Trimmed (s.pool.allocateBytes granted wanted).2 := by
  rcases Pool.snd_allocateBytes_of_error hcause with hsame | ⟨hstack, htrim⟩
  · exact Or.inl hsame
  · rw [htrim]
    exact Or.inr ⟨hstack, Pool.trimmed_trim h.cachedBytes_le⟩

theorem Reachable.futile (h : s.Reachable) (supply : Supply) (request : Request β)
    (hfutile : Futile request (s.perform supply request).result) :
    s.SameUpToRoom (s.perform supply request).scheduler ∨
      ∃ spec body wanted pool, request = .spawn spec body ∧
        (s.perform supply request).result = .error (.shortage (.stack wanted)) ∧
          s.pool.Trimmed pool ∧
            { s with pool := pool }.SameUpToRoom (s.perform supply request).scheduler := by
  rcases h.shaped with ⟨o, hs⟩
  rcases hs.perform supply request with ⟨o', hstep, hs'⟩
  have hidle := hfutile.idle hstep
  -- the links come back with the outline
  have hsame : Represents (s.perform supply request).scheduler o →
      s.SameUpToRoom (s.perform supply request).scheduler := by
    intro hrepresents
    rw [hs.1.unique hrepresents]
    exact .refl s
  generalize (s.perform supply request).scheduler = later at hs' hsame ⊢
  generalize (s.perform supply request).result = result at hfutile hidle ⊢
  cases hidle with
  | failed => exact Or.inl (hsame hs'.1)
  | noRoom _ => exact Or.inl (hs.1.sameUpToRoom_of_reserve hs'.1)
  | @noStack spec body cause hcause =>
      have hleft := hs.1.sameUpToRoom_of_allocate hs'.1
      have hcause' : (s.pool.allocateBytes supply.stack (o.config.stackSize spec.stackSize)).1 =
          .error cause := by
        rw [← hs.1.pool]
        exact hcause
      rcases h.refused hcause' with hpool | ⟨rfl, htrimmed⟩
      · rw [hpool] at hleft
        exact Or.inl hleft
      · exact Or.inr ⟨spec, body, _, _, rfl, rfl, htrimmed, hleft⟩
  | noBody _ => cases hfutile
  | stayed _ => exact Or.inl (hsame hs'.1)
  | polled => exact Or.inl (hsame hs'.1)
  | settled => cases hfutile

/-- In every reachable scheduler, operations that fail change nothing that matters. -/
theorem failsCleanly_create (config : Config) (requests : List (Request β × Supply)) :
    ((create config).after requests).FailsCleanly := by
  have hreachable : ((create config : Scheduler β).after requests).Reachable :=
    ⟨config, requests, rfl⟩
  constructor
  · exact hreachable.futile
  · exact fun granted wanted cause hcause => hreachable.refused hcause
  · intro supply request caller w hrunning hdeparts
    rcases hreachable.shaped with ⟨o, hs⟩
    rcases hs.1.dispatch_of_departs hs.2 hrunning hdeparts with ⟨o', t, htransfer, -, -⟩
    exact ⟨hdeparts.perform_eq hrunning, t, htransfer⟩

end Scheduler

end Coop
