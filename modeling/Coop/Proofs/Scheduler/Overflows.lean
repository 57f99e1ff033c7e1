import Coop.Proofs.Scheduler.Alarms
import Coop.Proofs.Scheduler.Sites

/-!
# Reports of overflows are exact

A thread that gives up the processor is reported when the word of its stack is not the canary
any more, and at no other time.  The stack had the canary when the thread began, whatever was
in that memory before, and since then only the thread itself could write there.  So there is
no false alarm.
-/

namespace Coop

open Thread (Block Handle Id Spec Table)

namespace Site

variable {β : Type}

namespace Event

def isWrite : Event β → Bool
  | write _ _ _ => true
  | _ => false

def Spares (h : Handle) : Event β → Prop
  | write owner offset _ => owner = h → 8 ≤ offset
  | _ => True

end Event

/-- What is true of stacks, and of reports about them, at one moment. -/
structure Watches (config : Config) (site : Site β) : Prop where
  /-- A new thread has the canary in its stack, whatever was there before. -/
  guarded : config.stackCanary = true → ∀ supply spec body h,
    (site.scheduler.perform supply (.spawn spec body)).result = .ok (.handle h) →
      ∃ stack,
        (site.scheduler.pool.allocateBytes supply.stack (config.stackSize spec.stackSize)).1 =
            .ok stack ∧
          (site.scheduler.perform supply (.spawn spec body)).scheduler.stack? h =
              .ok (some stack.guarded) ∧
            stack.guarded.word = Memory.wordOf Stack.canary
  kept : ∀ event, event.isWrite = false → ∀ h stack, site.scheduler.stack? h = .ok stack →
    (site.undergo event).scheduler.Resolves h → (site.undergo event).scheduler.stack? h = .ok stack
  written : ∀ owner offset byte stack, site.scheduler.stack? owner = .ok (some stack) →
    offset < stack.size → (site.undergo (.write owner offset byte)).scheduler.stack? owner =
      .ok (some { stack with memory := stack.memory.write offset byte })
  elsewhere : ∀ owner offset byte h, h ≠ owner →
    (site.undergo (.write owner offset byte)).scheduler.stack? h = site.scheduler.stack? h
  apart : ∀ h h' stack stack', site.scheduler.stack? h = .ok (some stack) →
    site.scheduler.stack? h' = .ok (some stack') → stack'.serial = stack.serial → h' = h
  unshared : ∀ h stack, site.scheduler.stack? h = .ok (some stack) →
    ∀ other ∈ site.spare, other.serial ≠ stack.serial
  reports : config.stackCanary = true → ∀ supply request id,
    .overflow id ∈ (site.scheduler.perform supply request).notices ↔
      ∃ h stack, h.id = id ∧ site.scheduler.Suspends supply request h ∧
        site.scheduler.stack? h = .ok (some stack) ∧ stack.word ≠ Memory.wordOf Stack.canary
  once : ∀ supply request id,
    (site.scheduler.perform supply request).notices.count (.overflow id) ≤ 1
  silent : config.stackCanary = false → ∀ supply request id,
    .overflow id ∉ (site.scheduler.perform supply request).notices

structure ReportsOverflows (config : Config) (events : List (Event β)) : Prop
    extends Watches config ((create config).after events) where
  /-- A thread whose word was not written since it began is not reported. -/
  spared : ∀ earlier later supply spec body h,
    events = earlier ++ .request (.spawn spec body) supply :: later →
      (((create config).after earlier).scheduler.perform supply (.spawn spec body)).result =
          .ok (.handle h) →
        (∀ event ∈ later, event.Spares h) → ∀ supply request,
          .overflow h.id ∉
            (((create config).after events).scheduler.perform supply request).notices

end Site

/-!
# What is looked at
-/

namespace Stack

theorem isIntact_iff {s : Stack} : s.isIntact = true ↔ s.word = Memory.wordOf canary :=
  beq_iff_eq

theorem word_guarded (s : Stack) : s.guarded.word = Memory.wordOf canary :=
  Memory.word_writeWord s.memory canary

end Stack

namespace Scheduler

variable {β : Type} {s : Scheduler β} {o : Outline β} {supply : Supply} {request : Request β}
  {caller h : Handle} {id : Id} {spec : Spec} {body : β}

theorem overrun?_of_off (hoff : s.config.stackCanary = false) (slot : Nat) :
    s.overrun? slot = none := by
  unfold overrun?
  cases s.table.get? slot with
  | none => rfl
  | some b => simp [Option.filter, hoff]

theorem overrun?_eq_some_iff (hon : s.config.stackCanary = true)
    (hrunning : s.running = .ok caller) :
    s.overrun? caller.slot = some id ↔ caller.id = id ∧ ∃ stack,
      s.stack? caller = .ok (some stack) ∧ stack.word ≠ Memory.wordOf Stack.canary := by
  rcases running_eq_ok_iff.mp hrunning with ⟨-, b, hlookup⟩
  rcases Table.lookup_eq_some_iff.mp hlookup with ⟨hget, hid⟩
  have hstack : s.stack? caller = .ok b.stack := stack?_eq_ok_iff.mpr ⟨b, hlookup, rfl⟩
  have hoverrun : s.overrun? caller.slot = if b.isIntact then none else some caller.id := by
    unfold overrun?
    rw [hget, ← hid]
    cases hintact : b.isIntact <;> simp [Option.filter, hon, hintact]
  rw [hoverrun, hstack]
  cases hb : b.stack with
  | none =>
      have hintact : b.isIntact = true := by rw [Block.isIntact, hb]
      simp [hintact]
  | some stack =>
      have hintact : b.isIntact = stack.isIntact := by rw [Block.isIntact, hb]
      rw [hintact]
      by_cases hword : stack.word = Memory.wordOf Stack.canary
      · simp [Stack.isIntact_iff.mpr hword, hword]
      · simp [Bool.eq_false_iff.mpr fun hsame => hword (Stack.isIntact_iff.mp hsame), hword]

theorem Shaped.overflow_mem_iff (hs : s.Shaped o) (hon : s.config.stackCanary = true) :
    .overflow id ∈ (s.perform supply request).notices ↔
      ∃ h stack, h.id = id ∧ s.Suspends supply request h ∧ s.stack? h = .ok (some stack) ∧
        stack.word ≠ Memory.wordOf Stack.canary := by
  rw [← Work.mem_alarms_iff]
  constructor
  · intro hmem
    by_cases hsuspends : ∃ caller, s.Suspends supply request caller
    · rcases hsuspends with ⟨caller, hsuspends⟩
      rw [hs.alarms_of_suspends hsuspends, Option.mem_toList] at hmem
      rcases (overrun?_eq_some_iff hon hsuspends.running).mp hmem with ⟨hid, stack, hstack, hword⟩
      exact ⟨caller, stack, hid, hsuspends, hstack, hword⟩
    · rw [hs.alarms_of_not_suspends (not_exists.mp hsuspends)] at hmem
      cases hmem
  · intro hoverrun
    rcases hoverrun with ⟨caller, stack, hid, hsuspends, hstack, hword⟩
    rw [hs.alarms_of_suspends hsuspends, Option.mem_toList]
    exact (overrun?_eq_some_iff hon hsuspends.running).mpr ⟨hid, stack, hstack, hword⟩

theorem Shaped.length_alarms_le (hs : s.Shaped o) (supply : Supply) (request : Request β) :
    (s.perform supply request).alarms.length ≤ 1 := by
  by_cases hsuspends : ∃ caller, s.Suspends supply request caller
  · rcases hsuspends with ⟨caller, hsuspends⟩
    rw [hs.alarms_of_suspends hsuspends]
    exact Option.length_toList_le
  · rw [hs.alarms_of_not_suspends (not_exists.mp hsuspends)]
    exact Nat.zero_le _

theorem Shaped.alarms_of_off (hs : s.Shaped o) (hoff : s.config.stackCanary = false)
    (supply : Supply) (request : Request β) : (s.perform supply request).alarms = [] := by
  by_cases hsuspends : ∃ caller, s.Suspends supply request caller
  · rcases hsuspends with ⟨caller, hsuspends⟩
    rw [hs.alarms_of_suspends hsuspends, overrun?_of_off hoff]
    rfl
  · exact hs.alarms_of_not_suspends (not_exists.mp hsuspends)

theorem Shaped.guarded_of_spawn (hs : s.Shaped o) (hon : s.config.stackCanary = true)
    (hspawned : (s.perform supply (.spawn spec body)).result = .ok (.handle h)) :
    ∃ stack, (s.pool.allocateBytes supply.stack (s.config.stackSize spec.stackSize)).1 = .ok stack ∧
      (s.perform supply (.spawn spec body)).scheduler.stack? h = .ok (some stack.guarded) := by
  rcases hs.perform supply (.spawn spec body) with ⟨o', hstep, hs'⟩
  rw [hspawned] at hstep
  rcases hstep.lookup_of_handle hs.2 with ⟨b, hbegins, hlookup⟩
  rw [hs'.1.lookup_eq] at hlookup
  rcases Option.map_eq_some_iff.mp hlookup with ⟨b', hlookup', hbare⟩
  generalize hrequest : Request.spawn spec body = request at hbegins
  cases hbegins with
  | main => cases hrequest
  | @fresh spec' body' stack hstack =>
      injection hrequest with hspec hbody
      subst hspec hbody
      rw [hs.1.pool, hs.1.config] at hstack
      have hprepared : o.prepare stack = stack.guarded := by
        rw [Outline.prepare, hs.1.config, hon]
        rfl
      have hb' : b'.stack = some (o.prepare stack) := congrArg Block.stack hbare
      rw [hprepared] at hb'
      exact ⟨stack, hstack, stack?_eq_ok_iff.mpr ⟨b', hlookup', hb'⟩⟩

end Scheduler

/-!
# Words that are not written
-/

namespace Site

variable {β : Type} {config : Config} {site : Site β} {o : Outline β} {h : Handle}

/-- The identifier of the handle is given out, and whoever has it has the canary. -/
structure Spared (site : Site β) (h : Handle) : Prop where
  id_lt : h.id < site.scheduler.nextId
  word : ∀ slot b stack, site.scheduler.table.get? slot = some b → b.id = h.id →
    b.stack = some stack → slot = h.slot ∧ stack.word = Memory.wordOf Stack.canary

namespace Spared

theorem perform (hspared : site.Spared h) (hsite : site.Ordered config o) (supply : Supply)
    (request : Request β) : (site.undergo (.request request supply)).Spared h := by
  rcases hsite.shaped.perform supply request with ⟨o', hstep, hs'⟩
  have hnext := hstep.nextId_le
  rw [hsite.shaped.1.nextId, hs'.1.nextId] at hnext
  constructor
  · exact Nat.lt_of_lt_of_le hspared.id_lt hnext
  · intro slot b stack hget hid hstack
    rcases hsite.shaped.origin supply request hget with ⟨b₀, hget₀, hestate⟩ | ⟨-, hbegins⟩
    · have hid₀ : b.id = b₀.id := congrArg Thread.Estate.id hestate
      have hstack₀ : b.stack = b₀.stack := congrArg Thread.Estate.stack hestate
      exact hspared.word slot b₀ stack hget₀ (hid₀.symm.trans hid) (hstack₀.symm.trans hstack)
    · -- a new thread has an identifier that was not given out before
      have hnew : b.id = site.scheduler.nextId := hbegins.id_eq.trans hsite.shaped.1.nextId
      have hlt := hspared.id_lt
      rw [← hid, hnew] at hlt
      exact absurd hlt (Nat.lt_irrefl _)

theorem write (hspared : site.Spared h) {owner : Handle} {offset : Nat} (byte : UInt8)
    (hoffset : owner = h → 8 ≤ offset) : (site.undergo (.write owner offset byte)).Spared h := by
  cases hlookup : site.scheduler.table.lookup owner with
  | none =>
      rw [undergo, Scheduler.writeStack_of_stale hlookup]
      exact hspared
  | some b =>
      rcases Table.lookup_eq_some_iff.mp hlookup with ⟨hget, hid⟩
      rw [undergo, Scheduler.writeStack_of_lookup hlookup]
      constructor
      · exact hspared.id_lt
      · intro slot b' stack' hget' hid' hstack'
        change (site.scheduler.table.modify owner.slot fun b => b.poke offset byte).get? slot =
          some b' at hget'
        by_cases hslot : slot = owner.slot
        · rw [hslot, Table.get?_modify_same, hget] at hget'
          injection hget' with hpoked
          subst hpoked
          rcases Option.map_eq_some_iff.mp hstack' with ⟨stack, hstack, rfl⟩
          rcases hspared.word owner.slot b stack hget hid' hstack with ⟨hsame, hword⟩
          -- the slot and the identifier are those of the handle
          have howner : owner = h := by
            rcases owner with ⟨slot, id⟩
            rcases h with ⟨slot', id'⟩
            simp only at hsame hid hid'
            rw [hsame, ← hid, ← hid']
            rfl
          rw [stack.word_poke_of_le byte (hoffset howner)]
          exact ⟨hslot.trans hsame, hword⟩
        · rw [Table.get?_modify_of_ne _ _ hslot] at hget'
          exact hspared.word slot b' stack' hget' hid' hstack'

theorem undergo (hspared : site.Spared h) (hsite : site.Ordered config o) {event : Event β}
    (hspares : event.Spares h) : (site.undergo event).Spared h := by
  cases event with
  | request request supply => exact hspared.perform hsite supply request
  | write owner offset byte => exact hspared.write byte hspares
  | deal deal => exact ⟨hspared.id_lt, hspared.word⟩

theorem after {events : List (Event β)} (hspared : site.Spared h) (hsite : site.Ordered config o)
    (hspares : ∀ event ∈ events, event.Spares h) : (site.after events).Spared h := by
  induction events generalizing site o with
  | nil => exact hspared
  | cons event rest ih =>
      rcases hsite.undergo event with ⟨o', hsite'⟩
      have hfirst := hspared.undergo hsite (hspares event List.mem_cons_self)
      exact ih hfirst hsite' fun later hlater => hspares later (List.mem_cons_of_mem _ hlater)

theorem of_spawn (hsite : site.Ordered config o) (hon : config.stackCanary = true)
    {supply : Supply} {spec : Spec} {body : β}
    (hspawned : (site.scheduler.perform supply (.spawn spec body)).result = .ok (.handle h)) :
    (site.undergo (.request (.spawn spec body) supply)).Spared h := by
  have hs := hsite.shaped
  rcases hs.guarded_of_spawn (by rw [hsite.config_eq, hon]) hspawned with ⟨stack, -, hstack⟩
  rcases Scheduler.stack?_eq_ok_iff.mp hstack with ⟨b, hlookup, hb⟩
  rcases Table.lookup_eq_some_iff.mp hlookup with ⟨hget, hid⟩
  rcases hs.perform supply (.spawn spec body) with ⟨o', -, hs'⟩
  have hnumbered := hs'.2.numbered
  have hget' := hs'.get?_bare hget
  constructor
  · have hlt := hnumbered.lt hget'
    rw [hs'.1.nextId] at hlt
    exact hid ▸ hlt
  · intro slot c stack' hc hcid hcstack
    have hslot : slot = h.slot := hnumbered.unique (hs'.get?_bare hc) hget' (hcid.trans hid.symm)
    subst hslot
    change (site.scheduler.perform supply (.spawn spec body)).scheduler.table.get? h.slot =
      some c at hc
    rw [hget] at hc
    injection hc with hbc
    subst hbc
    rw [hb] at hcstack
    injection hcstack with hguarded
    rw [← hguarded]
    exact ⟨rfl, stack.word_guarded⟩

end Spared

/-!
# Exact reports
-/

theorem Ordered.watches (hsite : site.Ordered config o) : site.Watches config := by
  have hs := hsite.shaped
  have hconfig := hsite.config_eq
  constructor
  case guarded =>
    intro hon supply spec body h hspawned
    rcases hs.guarded_of_spawn (by rw [hconfig, hon]) hspawned with ⟨stack, htaken, hstack⟩
    rw [hconfig] at htaken
    exact ⟨stack, htaken, hstack, stack.word_guarded⟩
  case kept =>
    intro event hevent h stack hstack hresolves
    cases event with
    | request request supply => exact hsite.stack?_perform supply request hstack hresolves
    | write owner offset byte => cases hevent
    | deal deal => exact hstack
  case written =>
    intro owner offset byte stack hstack hoffset
    exact stack?_writeStack site.scheduler byte hstack hoffset
  case elsewhere =>
    intro owner offset byte h hne
    exact stack?_writeStack_of_ne site.scheduler offset byte hne
  case apart =>
    intro h h' stack stack' hstack hstack' hserial
    exact hsite.serial_inj hstack hstack' hserial
  case unshared =>
    intro h stack hstack other hother
    exact hsite.serial_ne_of_mem_spare hstack hother
  case reports =>
    intro hon supply request id
    exact hs.overflow_mem_iff (by rw [hconfig, hon])
  case once =>
    intro supply request id
    rw [Work.count_overflow]
    exact Nat.le_trans List.count_le_length (hs.length_alarms_le supply request)
  case silent =>
    intro hoff supply request id
    rw [← Work.mem_alarms_iff, hs.alarms_of_off (by rw [hconfig, hoff])]
    exact List.not_mem_nil

theorem Ordered.not_mem_of_spared (hsite : site.Ordered config o) (hspared : site.Spared h)
    (hon : config.stackCanary = true) (supply : Supply) (request : Request β) :
    .overflow h.id ∉ (site.scheduler.perform supply request).notices := by
  intro hmem
  rcases (hsite.watches.reports hon supply request h.id).mp hmem with
    ⟨h', stack, hid, -, hstack, hword⟩
  rcases Scheduler.stack?_eq_ok_iff.mp hstack with ⟨b, hlookup, hb⟩
  rcases Table.lookup_eq_some_iff.mp hlookup with ⟨hget, hid'⟩
  exact hword (hspared.word h'.slot b stack hget (hid'.trans hid) hb).2

/--
In every run, an operation reports the thread that gives up the processor when its canary is
gone, and no other; and only the thread itself can have written over its canary.
-/
theorem reportsOverflows_create (config : Config) (events : List (Event β)) :
    ReportsOverflows config events := by
  have hcreated : (create config : Site β).Ordered config _ := .create config
  rcases hcreated.after events with ⟨o, hsite⟩
  refine ⟨hsite.watches, ?_⟩
  intro earlier later supply spec body h hevents hspawned hspares supply' request
  cases hcanary : config.stackCanary with
  | false => exact hsite.watches.silent hcanary supply' request h.id
  | true =>
      rcases hcreated.after earlier with ⟨o₁, hsite₁⟩
      rcases hsite₁.perform supply (.spawn spec body) with ⟨o₂, hsite₂⟩
      have hspared := (Spared.of_spawn hsite₁ hcanary hspawned).after hsite₂ hspares
      have hafter : (create config).after events =
          (((create config).after earlier).undergo (.request (.spawn spec body) supply)).after
            later := by
        rw [hevents, after_append]
        rfl
      rw [← hafter] at hspared
      exact hsite.not_mem_of_spared hspared hcanary supply' request

/-- A detached thread writes over its canary. -/
def soiled : List (Event Unit) :=
  [.request .bootstrap .ample, .request (.spawn { detached := true } ()) .ample,
    .request .yield .ample, .write ⟨1, 2⟩ 3 0x41]

/-- It is reported when it exits, and the next thread has its stack with the canary restored. -/
example :
    (((create {}).after soiled).scheduler.perform .ample (.exit 0)).notices.count
        (.overflow 2) = 1 ∧
      ((((create {}).after (soiled ++ [.request (.exit 0) .ample,
          .request .completeSwitch .ample, .request (.spawn {} ()) .ample])).scheduler.stack?
            ⟨1, 3⟩).toOption.join.map fun stack => (stack.serial, stack.isIntact)) =
        some (0, true) := by
  decide

end Site
end Coop
