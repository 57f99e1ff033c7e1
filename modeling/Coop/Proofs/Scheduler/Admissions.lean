import Coop.Proofs.Scheduler.Balance
import Coop.Proofs.Scheduler.Objections

/-!
# Who may spawn

A spawn asks for a place in the table and for a stack.  Whether it gets them depends on
the threads that live and on the stacks that are out, and on nothing that happened before:
a slot or a stack that was given back is as good as a new one, and a cached stack never
stands in the way of another one.
-/

namespace Coop

open Thread (Block Handle Id Spec Table)

/-- The allocator grants what a spawn asks of it. -/
structure Supply.Willing (supply : Supply) : Prop where
  stack : supply.stack = true
  slots : supply.slots ≠ .refused
  vacant : supply.vacant ≠ .refused

def Config.Affords (config : Config) (bytes : Nat) : Prop :=
  ∀ budget, config.stackBudget = some budget → bytes ≤ budget

namespace Scheduler

variable {β : Type}

/-!
# What a spawn promises
-/

/--
A new thread as its spawn left it, after a history: it is ready, behind all others, and
nobody else has changed.
-/
structure Enlists (s s' : Scheduler β) (history : List (Entry β)) (spec : Spec) (body : β)
    (h : Handle) (b : Block β) : Prop where
  lookup : s'.table.lookup h = some b
  vacant : s.table.get? h.slot = none
  fresh : ∀ h' ∈ created history, h'.id < h.id
  state : b.state = .ready
  name : b.name = spec.name
  detached : b.isDetached = spec.detached
  body : b.body = some body
  joiner : b.joiner = none
  exitCode : b.exitCode = none
  stack : ∃ stack, b.stack = some stack ∧
    stack.sizeClass.Fits (s.config.stackSize spec.stackSize)
  last : ∃ slots, s.ready.Visits s.table slots ∧ s'.ready.Visits s'.table (slots ++ [h.slot])
  /-- The others are as they were, up to the links of queues. -/
  others : ∀ slot, slot ≠ h.slot →
    (s'.table.get? slot).map Block.bare = (s.table.get? slot).map Block.bare
  current : s'.current = s.current

/-- The bytes that are out when a stack of a class is handed out too. -/
def bytesWith (s : Scheduler β) (c : SizeClass) : Nat :=
  (s.out.map Stack.size).sum + c.size

structure Admits (s : Scheduler β) (history : List (Entry β)) (supply : Supply) (spec : Spec)
    (body : β) : Prop where
  threads : (s.perform supply (.spawn spec body)).result = .error (.shortage .threads) ↔
    s.config.maxThreads ≤ s.stats.liveThreads
  tooLarge : s.stats.liveThreads < s.config.maxThreads →
    ((s.perform supply (.spawn spec body)).result =
        .error (.shortage (.stackTooLarge (s.config.stackSize spec.stackSize))) ↔
      262144 < s.config.stackSize spec.stackSize)
  stack : s.stats.liveThreads < s.config.maxThreads →
    ∀ c : SizeClass, c.Fits (s.config.stackSize spec.stackSize) →
      ((s.perform supply (.spawn spec body)).result =
          .error (.shortage (.stack (s.config.stackSize spec.stackSize))) ↔
        ∃ budget, s.config.stackBudget = some budget ∧ budget < s.bytesWith c)
  succeeds : s.stats.liveThreads < s.config.maxThreads →
    ∀ c : SizeClass, c.Fits (s.config.stackSize spec.stackSize) → s.config.Affords (s.bytesWith c) →
      ∃ h b, (s.perform supply (.spawn spec body)).result = .ok (.handle h) ∧
        s.Enlists (s.perform supply (.spawn spec body)).scheduler history spec body h b

inductive Admission (s : Scheduler β) (history : List (Entry β)) (spec : Spec) (body : β)
    (s' : Scheduler β) : Except Error (Answer β) → Prop where
  | full : s.config.maxThreads ≤ s.stats.liveThreads →
      Admission s history spec body s' (.error (.shortage .threads))
  | tooLarge : s.stats.liveThreads < s.config.maxThreads →
      262144 < s.config.stackSize spec.stackSize →
        Admission s history spec body s'
          (.error (.shortage (.stackTooLarge (s.config.stackSize spec.stackSize))))
  | overBudget {c : SizeClass} {budget : Nat} : s.stats.liveThreads < s.config.maxThreads →
      c.Fits (s.config.stackSize spec.stackSize) → s.config.stackBudget = some budget →
        budget < s.bytesWith c → Admission s history spec body s'
          (.error (.shortage (.stack (s.config.stackSize spec.stackSize))))
  | enlisted {c : SizeClass} {h : Handle} {b : Block β} :
      s.stats.liveThreads < s.config.maxThreads → c.Fits (s.config.stackSize spec.stackSize) →
        s.config.Affords (s.bytesWith c) → s.Enlists s' history spec body h b →
          Admission s history spec body s' (.ok (.handle h))

variable {s : Scheduler β} {o o' : Outline β} {history : List (Entry β)} {spec : Spec} {body : β}
  {supply : Supply} {cur : Nat}

/-!
# The new thread
-/

theorem Shaped.id_lt_of_created (hs : s.Shaped o) (requests : List (Request β × Supply)) :
    ∀ h ∈ created (s.run requests), h.id < (s.after requests).nextId := by
  induction requests using List.reverseRecOn with
  | nil => exact fun h hh => absurd hh List.not_mem_nil
  | append_singleton requests entry ih =>
      rcases entry with ⟨request, supply⟩
      rcases hs.after requests with ⟨o', hs'⟩
      have hnumbers := numbers (e := ⟨s.after requests, request, supply,
        (s.after requests).perform supply request⟩) hs' rfl
      intro h hh
      rw [run_concat, created, List.filterMap_append] at hh
      rw [after_append]
      change h.id < ((s.after requests).perform supply request).scheduler.nextId
      simp only [Entry.later] at hnumbers
      rcases List.mem_append.mp hh with hold | hnew
      · have hlt := ih h hold
        rcases hnumbers with ⟨-, -, -, hnext⟩ | ⟨-, hnext⟩
        · rw [hnext]
          exact Nat.lt_succ_of_lt hlt
        · rw [hnext]
          exact hlt
      · rcases hnumbers with ⟨h', hcreated, hid, hnext⟩ | ⟨hnone, -⟩
        · rw [List.filterMap_cons_some hcreated, List.filterMap_nil, List.mem_singleton] at hnew
          rw [hnew, hnext, hid]
          exact Nat.lt_succ_self _
        · rw [List.filterMap_cons_none hnone] at hnew
          cases hnew

theorem Shaped.enlists (hs : s.Shaped o) (htracks : s.pool.Tracks s.out) {h : Handle}
    (hids : ∀ h' ∈ created history, h'.id < s.nextId)
    (hresult : (s.perform supply (.spawn spec body)).result = .ok (.handle h)) :
    ∃ b, s.Enlists (s.perform supply (.spawn spec body)).scheduler history spec body h b := by
  rcases hs.perform supply (.spawn spec body) with ⟨o', hstep, hs'⟩
  rw [hresult] at hstep
  rcases hstep.begins hs.2 with ⟨hhandle, b₀, hbegins, hslots⟩
  have hid : h.id = s.nextId := by rw [hhandle, hs.1.nextId]
  have hslot : h.slot = o.table.nextSlot := by rw [hhandle]
  have hvacant : o.table.get? h.slot = none := by
    rw [hslot]
    exact hs.2.packed.get?_nextSlot
  have hnew : o'.table.get? h.slot = some b₀ := by rw [hslots, if_pos hslot]
  have hready : o'.ready = o.ready ++ [h.slot] := by
    rw [hslot]
    cases hstep with
    | idle hidle => cases hidle
    | @spawned cur spec body stack _ _ _ =>
        have halike :=
          (Outline.Alike.reserve o supply).allocate supply (o.config.stackSize spec.stackSize)
        rw [← halike.nextSlot]
        rfl
  have hcurrent : o'.current = o.current := by
    cases hstep with
    | idle hidle => cases hidle
    | spawned _ _ _ => rfl
  have hprovides := hbegins.provides (by
    rw [hs.1.pool]
    exact htracks.of_serials (hs.out_perm.map Stack.serial))
  rw [hs'.1.get?_eq] at hnew
  rcases Option.map_eq_some_iff.mp hnew with ⟨b, hget, hbare⟩
  cases hbegins with
  | @fresh _ _ stack _ =>
      refine ⟨b, ?_⟩
      constructor
      · exact Table.lookup_eq_some_iff.mpr ⟨hget, (congrArg Block.id hbare).trans
          (hs.1.nextId.trans hid.symm)⟩
      · rw [hs.1.get?_eq] at hvacant
        exact Option.map_eq_none_iff.mp hvacant
      · rw [hid]
        exact hids
      · exact congrArg Block.state hbare
      · exact congrArg Block.name hbare
      · exact congrArg Block.isDetached hbare
      · exact congrArg Block.body hbare
      · exact congrArg Block.joiner hbare
      · exact congrArg Block.exitCode hbare
      · rw [hs.1.config] at hprovides
        cases hprovides with
        | spawned hfits => exact ⟨_, congrArg Block.stack hbare, hfits⟩
      · refine ⟨o.ready, (hs.1.ready.holds ()).visits, ?_⟩
        rw [← hready]
        exact (hs'.1.ready.holds ()).visits
      · intro slot hother
        rw [← hs.1.get?_eq, ← hs'.1.get?_eq, hslots, if_neg]
        rw [← hslot]
        exact hother
      · rw [← hs.1.current, ← hs'.1.current, hcurrent]

/-!
# The answer
-/

theorem result_spawn_of_noRoom (hcurrent : s.current = some cur) {cause : Shortage}
    (hroom : (s.table.reserve supply.slots supply.vacant).1 = .error cause) :
    (s.perform supply (.spawn spec body)).result = .error (.shortage cause) := by
  simp only [Scheduler.perform, spawn, hcurrent, Work.reserve, work, hroom]
  rfl

theorem result_spawn_of_noStack (hcurrent : s.current = some cur) {cause : Shortage}
    (hroom : (s.table.reserve supply.slots supply.vacant).1 = .ok ())
    (hstack : (s.pool.allocateBytes supply.stack (s.config.stackSize spec.stackSize)).1 =
      .error cause) :
    (s.perform supply (.spawn spec body)).result = .error (.shortage cause) := by
  simp only [Scheduler.perform, spawn, hcurrent, Work.reserve, work, hroom, Work.allocate,
    Work.update, Work.expect, hstack]
  rfl

theorem result_spawn_of_stack (hcurrent : s.current = some cur) {stack : Stack}
    (hroom : (s.table.reserve supply.slots supply.vacant).1 = .ok ())
    (hstack : (s.pool.allocateBytes supply.stack (s.config.stackSize spec.stackSize)).1 =
      .ok stack) :
    ∃ h, (s.perform supply (.spawn spec body)).result = .ok (.handle h) := by
  simp only [Scheduler.perform, spawn, hcurrent, Work.reserve, work, hroom, Work.allocate,
    Work.update, Work.expect, hstack]
  exact ⟨_, rfl⟩

theorem Reachable.admission (h : s.Reachable) (hids : ∀ h' ∈ created history, h'.id < s.nextId)
    (hcurrent : s.current = some cur) (hsupply : supply.Willing) :
    s.Admission history spec body (s.perform supply (.spawn spec body)).scheduler
      (s.perform supply (.spawn spec body)).result := by
  rcases h.limits with ⟨hlimit, hbudget⟩
  have hreserve := s.table.fst_reserve_of_granted hsupply.slots hsupply.vacant
  rw [hlimit] at hreserve
  by_cases hfull : s.config.maxThreads ≤ s.stats.liveThreads
  · rw [result_spawn_of_noRoom hcurrent (hreserve.trans (if_pos hfull))]
    exact .full hfull
  have hroom := hreserve.trans (if_neg hfull)
  have hlive := Nat.lt_of_not_le hfull
  cases hclass : SizeClass.holding? (s.config.stackSize spec.stackSize) with
  | none =>
      have hlarge : (s.pool.allocateBytes supply.stack (s.config.stackSize spec.stackSize)).1 =
          .error (.stackTooLarge (s.config.stackSize spec.stackSize)) := by
        rw [Pool.allocateBytes, hclass]
      rw [result_spawn_of_noStack hcurrent hroom hlarge]
      exact .tooLarge hlive (SizeClass.holding?_eq_none_iff.mp hclass)
  | some c =>
      have hfits := SizeClass.fits_of_holding? hclass
      have hanswer := h.tracks.allocateBytes_of_holding? h.lends hclass
      rw [← hsupply.stack, hbudget] at hanswer
      rcases hanswer with ⟨hrefused, budget, hset, hover⟩ | ⟨⟨stack, hgranted⟩, haffords⟩
      · rw [result_spawn_of_noStack hcurrent hroom hrefused]
        exact .overBudget hlive hfits hset hover
      · have hspawned : ∃ h, (s.perform supply (.spawn spec body)).result = .ok (.handle h) :=
          result_spawn_of_stack hcurrent hroom hgranted
        rcases hspawned with ⟨handle, hresult⟩
        rcases h.shaped with ⟨o, hs⟩
        rcases hs.enlists h.tracks hids hresult with ⟨b, henlists⟩
        rw [hresult]
        exact .enlisted hlive hfits haffords henlists

theorem Admission.admits
    (h : s.Admission history spec body (s.perform supply (.spawn spec body)).scheduler
      (s.perform supply (.spawn spec body)).result) : s.Admits history supply spec body := by
  generalize hresult : (s.perform supply (.spawn spec body)).result = result at h
  have hholds : ∀ {c : SizeClass}, c.Fits (s.config.stackSize spec.stackSize) →
      ¬ 262144 < s.config.stackSize spec.stackSize :=
    fun hc => Nat.not_lt.mpr (Nat.le_trans hc.holds (SizeClass.size_le_extraLarge _))
  -- a class that fits fixes what is out in all
  have hbytes : ∀ {c d : SizeClass}, c.Fits (s.config.stackSize spec.stackSize) →
      d.Fits (s.config.stackSize spec.stackSize) → s.bytesWith c = s.bytesWith d := by
    intro c d hc hd
    rw [bytesWith, bytesWith, hc.size_eq hd]
  constructor
  · rw [hresult]
    cases h with
    | full hfull => exact iff_of_true rfl hfull
    | tooLarge hlive _ => exact iff_of_false (by simp) (Nat.not_le_of_lt hlive)
    | overBudget hlive _ _ _ => exact iff_of_false (by simp) (Nat.not_le_of_lt hlive)
    | enlisted hlive _ _ _ => exact iff_of_false (by simp) (Nat.not_le_of_lt hlive)
  · intro hlive
    rw [hresult]
    cases h with
    | full hfull => exact absurd hlive (Nat.not_lt_of_le hfull)
    | tooLarge _ hlarge => exact iff_of_true rfl hlarge
    | overBudget _ hfits _ _ => exact iff_of_false (by simp) (hholds hfits)
    | enlisted _ hfits _ _ => exact iff_of_false (by simp) (hholds hfits)
  · intro hlive c hc
    rw [hresult]
    cases h with
    | full hfull => exact absurd hlive (Nat.not_lt_of_le hfull)
    | tooLarge _ hlarge => exact absurd hlarge (hholds hc)
    | overBudget _ hfits hset hover =>
        rw [hbytes hfits hc] at hover
        exact iff_of_true rfl ⟨_, hset, hover⟩
    | enlisted _ hfits haffords _ =>
        refine iff_of_false (by simp) ?_
        rintro ⟨budget, hset, hover⟩
        rw [hbytes hc hfits] at hover
        exact Nat.not_lt_of_le (haffords budget hset) hover
  · intro hlive c hc haffords
    rw [hresult]
    cases h with
    | full hfull => exact absurd hlive (Nat.not_lt_of_le hfull)
    | tooLarge _ hlarge => exact absurd hlarge (hholds hc)
    | overBudget _ hfits hset hover =>
        rw [hbytes hfits hc] at hover
        exact absurd hover (Nat.not_lt_of_le (haffords _ hset))
    | enlisted _ _ _ henlists => exact ⟨_, _, rfl, henlists⟩

/-!
# Every reachable scheduler
-/

/--
In every reachable scheduler that has a main thread, a spawn is answered by who lives and
which stacks are out, if the allocator grants what it is asked for.
-/
theorem admits_create (config : Config) (requests : List (Request β × Supply))
    (hadopted : ∃ e ∈ (create config).run requests, e.Adopts) (supply : Supply)
    (hsupply : supply.Willing) (spec : Spec) (body : β) :
    ((create config).after requests).Admits ((create config).run requests) supply spec body := by
  have hcreated : (create config : Scheduler β).Shaped _ := shaped_create config
  have hreachable : ((create config : Scheduler β).after requests).Reachable :=
    ⟨config, requests, rfl⟩
  have hinitialized := (hcreated.current_isSome_iff requests).mpr (Or.inl hadopted)
  rcases Option.isSome_iff_exists.mp hinitialized with ⟨cur, hcurrent⟩
  exact (hreachable.admission (hcreated.id_lt_of_created requests) hcurrent hsupply).admits

/-- A detached thread ends, and its stack fills the budget from a cache. -/
def fillsCache : List (Request Unit × Supply) :=
  [(.bootstrap, .ample), (.spawn { detached := true } (), .ample), (.yield, .ample),
    (.exit 0, .ample), (.completeSwitch, .ample)]

/-- The cached stack is given up for a smaller one, because nothing else is out. -/
theorem admits_create_fillsCache :
    let s : Scheduler Unit := (create { stackBudget := some 4100 }).after fillsCache
    (∃ e ∈ (create { stackBudget := some 4100 }).run fillsCache, e.Adopts) ∧
      Supply.ample.Willing ∧ s.pool.reserved = 4096 ∧
        s.Admits ((create { stackBudget := some 4100 }).run fillsCache) .ample { stackSize := 1000 }
          () ∧
          (s.perform .ample (.spawn { stackSize := 1000 } ())).result = .ok (.handle ⟨1, 3⟩) := by
  have hadopted : ∃ e ∈ (create { stackBudget := some 4100 }).run fillsCache, e.Adopts :=
    ⟨_, List.mem_cons_self, rfl, ⟨0, 1⟩, rfl⟩
  have hsupply : Supply.ample.Willing := ⟨rfl, by decide, by decide⟩
  exact ⟨hadopted, hsupply, rfl, admits_create _ fillsCache hadopted .ample hsupply _ (), rfl⟩

end Scheduler

end Coop
